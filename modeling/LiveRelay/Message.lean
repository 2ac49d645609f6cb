import LiveRelay.Amf0Reading
import LiveRelay.Amf0Writing
import LiveRelay.ChunkHeader

/-!
# Messages

A complete message is classified by its type.  Types 1 to 6 control the
connection, 8 and 9 carry audio and video, 15 and 18 data, 17 and 20 commands.
The payload of a command stays encoded, since how much of it is read depends
on the command.  The variants of commands and data for the newer value format
may start with a zero byte, which is dropped.

Reading ignores what stands behind the fields of a control message, and the
reserved top bit of a chunk size.
-/

namespace LiveRelay

inductive UserControlEvent where
  | streamBegin (streamId : UInt32)
  | streamEnd (streamId : UInt32)
  | streamDry (streamId : UInt32)
  | setBufferLength (streamId milliseconds : UInt32)
  | streamIsRecorded (streamId : UInt32)
  | pingRequest (timestamp : UInt32)
  | pingResponse (timestamp : UInt32)
  | unknown (event : UInt16) (content : Bytes)
  deriving DecidableEq, Repr

/-- A named sequence of values, such as the description of a stream. -/
structure DataMessage where
  name : String
  values : List AmfValue
  streamId : UInt32

inductive Message where
  | setChunkSize (size : UInt32)
  | abort (chunkStream : UInt32)
  | acknowledgement (sequence : UInt32)
  | userControl (event : UserControlEvent)
  | windowAckSize (size : UInt32)
  | setPeerBandwidth (size : UInt32) (limit : UInt8)
  | audio (timestamp : UInt32) (content : Bytes)
  | video (timestamp : UInt32) (content : Bytes)
  /-- The payload starts at the command's name. -/
  | command (streamId : UInt32) (payload : Bytes)
  | data (message : DataMessage)
  | unknown (typeId : UInt8) (content : Bytes)

/-! ## Data messages -/

namespace DataMessage

def setDataFrame : String := "@setDataFrame"

def clearDataFrame : String := "@clearDataFrame"

def onMetaData : String := "onMetaData"

/-- The values that may hold a stream's description, if the message has one. -/
def described? (message : DataMessage) : Option (List AmfValue) :=
  if message.name = setDataFrame then
    match message.values with
    | .text first :: others => if first = onMetaData then some others else none
    | _ => none
  else if message.name = onMetaData then some message.values
  else none

/-- A stream's description is the first value that has properties. -/
def metadata? (message : DataMessage) : Option Properties :=
  message.described?.bind (·.findSome? AmfValue.properties?)

/-- The description as it is sent to viewers. -/
def ofMetadata (metadata : Properties) (streamId : UInt32) : DataMessage where
  name := onMetaData
  values := [.ecmaArray metadata]
  streamId := streamId

def write (message : DataMessage) : Bytes :=
  Amf0.writeItems (.text message.name :: message.values)

end DataMessage

/-! ## Values of a truncated payload -/

/-- At most `count` values, fewer if the input ends before. -/
def Amf0.valuesUpTo : (count : Nat) → List AmfValue → Amf0Reader (List AmfValue)
  | 0, done => return done.reverse
  | count + 1, done => fun cursor =>
      match Amf0.value true cursor with
      | .ok value cursor => Amf0.valuesUpTo count (value :: done) cursor
      | .error .unexpectedEnd cursor => .ok done.reverse cursor
      | .error error cursor => .error error cursor

/-! ## Reading -/

namespace UserControlEvent

def read (payload : Bytes) : Except ProtocolError UserControlEvent :=
  match payload.split? 2 with
  | none => .error .invalidChunkHeader
  | some (kind, fields) =>
      match fields.split? 4 with
      | none => .error .invalidChunkHeader
      | some (first, rest) =>
          let argument := Bytes.word32 first
          match Bytes.number kind with
          | 0 => .ok (.streamBegin argument)
          | 1 => .ok (.streamEnd argument)
          | 2 => .ok (.streamDry argument)
          | 3 =>
              match rest.split? 4 with
              | none => .error .invalidChunkHeader
              | some (second, _) =>
                  .ok (.setBufferLength argument (Bytes.word32 second))
          | 4 => .ok (.streamIsRecorded argument)
          | 6 => .ok (.pingRequest argument)
          | 7 => .ok (.pingResponse argument)
          | _ => .ok (.unknown (Bytes.word16 kind) fields)

def write : UserControlEvent → Bytes
  | .streamBegin streamId => Bytes.ofNumber 2 0 ++ Bytes.ofWord32 streamId
  | .streamEnd streamId => Bytes.ofNumber 2 1 ++ Bytes.ofWord32 streamId
  | .streamDry streamId => Bytes.ofNumber 2 2 ++ Bytes.ofWord32 streamId
  | .setBufferLength streamId milliseconds =>
      Bytes.ofNumber 2 3 ++ Bytes.ofWord32 streamId ++
        Bytes.ofWord32 milliseconds
  | .streamIsRecorded streamId => Bytes.ofNumber 2 4 ++ Bytes.ofWord32 streamId
  | .pingRequest timestamp => Bytes.ofNumber 2 6 ++ Bytes.ofWord32 timestamp
  | .pingResponse timestamp => Bytes.ofNumber 2 7 ++ Bytes.ofWord32 timestamp
  | .unknown event content => Bytes.ofWord16 event ++ content

end UserControlEvent

namespace Message

/-- The first four bytes of a control message. -/
def argument (payload : Bytes) : Except ProtocolError UInt32 :=
  match payload.split? 4 with
  | some (bytes, _) => .ok (Bytes.word32 bytes)
  | none => .error .invalidChunkHeader

def readBandwidth (payload : Bytes) : Except ProtocolError Message :=
  match payload.split? 4 with
  | some (size, limit :: _) => .ok (.setPeerBandwidth (Bytes.word32 size) limit)
  | _ => .error .invalidChunkHeader

/-- The zero byte that the newer variants may start with. -/
def dropFormatByte : Bytes → Bytes
  | 0 :: rest => rest
  | payload => payload

/-- A name that is not a text counts as empty, and an incomplete value at the
end is left out. -/
def readData (streamId : UInt32) (payload : Bytes) :
    Except AmfError DataMessage :=
  let reader : Amf0Reader DataMessage := do
    let first ← Amf0.value true
    let values ← fun cursor => Amf0.valuesUpTo cursor.rest.length [] cursor
    return ⟨first.text?.getD "", values, streamId⟩
  match reader ⟨{}, payload⟩ with
  | .ok message _ => .ok message
  | .error error _ => .error error

def masked (size : UInt32) : UInt32 :=
  UInt32.ofNat (size.toNat % 0x80000000)

def ofProtocol {α : Type} (result : Except ProtocolError α) : Except Error α :=
  result.mapError .protocol

def read (wire : WireMessage) : Except Error Message :=
  let payload := wire.payload
  match wire.typeId with
  | 1 => ofProtocol ((argument payload).map fun size => .setChunkSize (masked size))
  | 2 => ofProtocol ((argument payload).map .abort)
  | 3 => ofProtocol ((argument payload).map .acknowledgement)
  | 4 => ofProtocol ((UserControlEvent.read payload).map .userControl)
  | 5 => ofProtocol ((argument payload).map .windowAckSize)
  | 6 => ofProtocol (readBandwidth payload)
  | 8 => .ok (.audio wire.timestamp payload)
  | 9 => .ok (.video wire.timestamp payload)
  | 15 =>
      ((readData wire.streamId (dropFormatByte payload)).map .data).mapError .amf
  | 17 => .ok (.command wire.streamId (dropFormatByte payload))
  | 18 => ((readData wire.streamId payload).map .data).mapError .amf
  | 20 => .ok (.command wire.streamId payload)
  | typeId => .ok (.unknown typeId payload)

/-! ## Writing -/

/-- Type and payload of a message; commands and data take the types of the
older value format. -/
def write : Message → UInt8 × Bytes
  | .setChunkSize size => (1, Bytes.ofWord32 size)
  | .abort chunkStream => (2, Bytes.ofWord32 chunkStream)
  | .acknowledgement sequence => (3, Bytes.ofWord32 sequence)
  | .userControl event => (4, event.write)
  | .windowAckSize size => (5, Bytes.ofWord32 size)
  | .setPeerBandwidth size limit => (6, Bytes.ofWord32 size ++ [limit])
  | .audio _ content => (8, content)
  | .video _ content => (9, content)
  | .command _ payload => (20, payload)
  | .data message => (18, message.write)
  | .unknown typeId content => (typeId, content)

end Message

end LiveRelay
