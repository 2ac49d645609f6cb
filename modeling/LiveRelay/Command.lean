import LiveRelay.AmfText
import LiveRelay.Message

/-!
# Commands

A command is a name, a transaction and parameters.  Each known command says
how many parameters it takes, and no more of the payload than those is read.
Parameters that are missing at the end take their defaults, as do parameters
of another kind than expected.  The first parameter is the command object,
which only `connect` looks at.
-/

namespace LiveRelay

/-! ## Parameters -/

structure ConnectParameters where
  app : String := ""
  flashVersion : Option String := none
  swfUrl : Option String := none
  tcUrl : Option String := none
  pageUrl : Option String := none
  objectEncoding : Binary64 := .zero
  /-- Properties without a meaning of their own. -/
  extra : Properties := []
  arguments : Option Properties := none
  deriving Inhabited

structure PublishParameters where
  streamName : String := ""
  /-- One of live, record and append. -/
  publishType : String := "live"
  deriving DecidableEq, Inhabited, Repr

/-- By default live or recorded, to the end. -/
structure PlayParameters where
  streamName : String := ""
  start : Binary64 := (Binary64.ofNat 2).negate
  duration : Binary64 := (Binary64.ofNat 1).negate
  reset : Bool := true
  deriving DecidableEq, Inhabited, Repr

inductive Command where
  | connect (parameters : ConnectParameters)
  | createStream
  | publish (parameters : PublishParameters)
  | play (parameters : PlayParameters)
  | closeStream
  /-- The stream named in the parameters, not the one of the message. -/
  | deleteStream (streamId : UInt32)
  | pause (paused : Bool) (milliseconds : Binary64)
  | receiveAudio (enabled : Bool)
  | receiveVideo (enabled : Bool)
  | releaseStream (streamName : String)
  | announcePublish (streamName : String)
  | announceUnpublish (streamName : String)

structure CommandCall where
  name : String
  transaction : Binary64
  /-- The stream of the message that the command came in. -/
  streamId : UInt32
  command : Command

namespace ConnectParameters

/-- Each name that is understood has an all-lower-case spelling too. -/
def set (parameters : ConnectParameters) (name : String) (value : AmfValue) :
    ConnectParameters :=
  if name = "app" then
    match value with
    | .text app => { parameters with app := app }
    | _ => parameters
  else if name = "flashVer" ∨ name = "flashver" then
    { parameters with flashVersion := value.text? }
  else if name = "swfUrl" ∨ name = "swfurl" then
    { parameters with swfUrl := value.text? }
  else if name = "tcUrl" ∨ name = "tcurl" then
    { parameters with tcUrl := value.text? }
  else if name = "pageUrl" ∨ name = "pageurl" then
    { parameters with pageUrl := value.text? }
  else if name = "objectEncoding" ∨ name = "objectencoding" then
    { parameters with objectEncoding := value.number?.getD .zero }
  else { parameters with extra := parameters.extra.put name value }

/-- An application name ends where its query starts. -/
def withoutQuery (app : String) : String :=
  String.ofList (app.toList.takeWhile (· ≠ '?'))

def ofProperties (properties : Properties) : ConnectParameters :=
  let parameters : ConnectParameters :=
    properties.foldl (fun parameters (name, value) => set parameters name value) {}
  { parameters with app := withoutQuery parameters.app }

def ofValue (value : AmfValue) : ConnectParameters :=
  ofProperties (value.properties?.getD [])

end ConnectParameters

/-! ## Shapes -/

namespace Command

def textAt (parameters : List AmfValue) (position : Nat) : String :=
  (parameters[position]?.bind AmfValue.text?).getD ""

def numberAt? (parameters : List AmfValue) (position : Nat) : Option Binary64 :=
  parameters[position]?.bind AmfValue.number?

/-- Some players send numbers for truth values. -/
def booleanAt? (parameters : List AmfValue) (position : Nat) : Option Bool :=
  match parameters[position]? with
  | some (.boolean flag) => some flag
  | some (.number value) => some !value.isZero
  | _ => none

def readConnect (parameters : List AmfValue) : Command :=
  let connect := (parameters[0]?.map ConnectParameters.ofValue).getD {}
  .connect { connect with arguments := parameters[1]?.bind AmfValue.properties? }

def readPublish (parameters : List AmfValue) : Command :=
  .publish
    { streamName := textAt parameters 1
      publishType := (parameters[2]?.bind AmfValue.text?).getD "live" }

def readPlay (parameters : List AmfValue) : Command :=
  let defaults : PlayParameters := {}
  .play
    { streamName := textAt parameters 1
      start := (numberAt? parameters 2).getD defaults.start
      duration := (numberAt? parameters 3).getD defaults.duration
      reset := (booleanAt? parameters 4).getD defaults.reset }

def readDeleteStream (parameters : List AmfValue) : Command :=
  .deleteStream ((numberAt? parameters 1).getD .zero).truncate32

def readPause (parameters : List AmfValue) : Command :=
  .pause ((booleanAt? parameters 1).getD false)
    ((numberAt? parameters 2).getD .zero)

/-- How many parameters a command takes, the command object included, and what
they mean. -/
structure Shape where
  arity : Nat
  read : List AmfValue → Command

def shapes : Fields Shape :=
  [("connect", ⟨2, readConnect⟩),
    ("createStream", ⟨1, fun _ => .createStream⟩),
    ("publish", ⟨3, readPublish⟩),
    ("play", ⟨5, readPlay⟩),
    ("closeStream", ⟨1, fun _ => .closeStream⟩),
    ("deleteStream", ⟨2, readDeleteStream⟩),
    ("pause", ⟨3, readPause⟩),
    ("receiveAudio", ⟨2, fun given => .receiveAudio ((booleanAt? given 1).getD true)⟩),
    ("receiveVideo", ⟨2, fun given => .receiveVideo ((booleanAt? given 1).getD true)⟩),
    ("releaseStream", ⟨2, fun given => .releaseStream (textAt given 1)⟩),
    ("FCPublish", ⟨2, fun given => .announcePublish (textAt given 1)⟩),
    ("FCUnpublish", ⟨2, fun given => .announceUnpublish (textAt given 1)⟩)]

def shape? (name : String) : Option Shape :=
  shapes.get? name

def isKnown (name : String) : Bool :=
  (shape? name).isSome

end Command

/-! ## Calls -/

namespace CommandCall

/-- A transaction that is missing or cut off, or no number, is number zero. -/
def readTransaction : Amf0Reader Binary64 := fun cursor =>
  match Amf0.value true cursor with
  | .ok value cursor => .ok (value.number?.getD .zero) cursor
  | .error .unexpectedEnd cursor => .ok .zero cursor
  | .error error cursor => .error error cursor

/-- The rest of a call whose name has been read. -/
def afterName (streamId : UInt32) (name : String) (shape : Command.Shape) :
    Amf0Reader CommandCall := do
  let transaction ← readTransaction
  let parameters ← Amf0.valuesUpTo shape.arity []
  return ⟨name, transaction, streamId, shape.read parameters⟩

/-- The call in a payload, `none` if its name is not known. -/
def read (streamId : UInt32) (payload : Bytes) :
    Except Error (Option CommandCall) :=
  match Amf0.value true ⟨{}, payload⟩ with
  | .error error _ => .error (.amf error)
  | .ok (.text name) cursor =>
      match Command.shape? name with
      | none => .ok none
      | some shape =>
          match afterName streamId name shape cursor with
          | .ok call _ => .ok (some call)
          | .error error _ => .error (.amf error)
  | .ok other _ =>
      .error (.protocol
        (.invalidCommand ("expected command name, got " ++ other.describe)))

end CommandCall

/-! ## Replies -/

/-- A command that the server sends. -/
structure Reply where
  name : String
  transaction : Binary64
  /-- Often null. -/
  object : AmfValue
  arguments : List AmfValue
  streamId : UInt32

namespace Reply

def result (transaction : Binary64) (object info : AmfValue) : Reply :=
  ⟨"_result", transaction, object, [info], 0⟩

def failure (transaction : Binary64) (object info : AmfValue) : Reply :=
  ⟨"_error", transaction, object, [info], 0⟩

def status (streamId : UInt32) (level code description : String) : Reply :=
  let info : AmfValue :=
    .object
      [("level", .text level), ("code", .text code),
        ("description", .text description)]
  ⟨"onStatus", .zero, .null, [info], streamId⟩

def write (reply : Reply) : Bytes :=
  Amf0.writeItems
    (.text reply.name :: .number reply.transaction :: reply.object ::
      reply.arguments)

end Reply

end LiveRelay
