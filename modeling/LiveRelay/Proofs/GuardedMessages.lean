import LiveRelay.Command
import LiveRelay.Proofs.GuardedValues
import Mathlib.Data.List.TakeWhile

/-!
# Messages without faults

A control message is tested for its length before its fields are taken, once for all
of them.  The values of data and of commands are read as far as they go.  What is
then cut out of them is cut behind a test as well: the values behind the name of a
description, and the name of an application in front of its query.
-/

namespace LiveRelay

open Partial

/-! ## Values -/

namespace AmfReader

variable {Tables α : Type}

/-- What a reader finds, whatever it leaves behind. -/
def found (result : EStateM.Result AmfError (AmfCursor Tables) α) : Except AmfError α :=
  match result with
  | .ok value _ => .ok value
  | .error error _ => .error error

/-- A fresh reader, which is not nested yet. -/
def runGuarded (guarded : GuardedReader Tables α) (cursor : AmfCursor Tables) :
    Partial (Except AmfError α) := do
  let (found, _) ← guarded ⟨fun _ => 0, cursor⟩
  return found

theorem Guards.run_eq {size : Tables → Nat} {guarded : GuardedReader Tables α}
    {reader : AmfReader Tables α} (hguards : Guards size (fun _ => 0) 0 guarded reader)
    (cursor : AmfCursor Tables) :
    runGuarded guarded cursor = .ok (found (reader cursor)) := by
  have hreader := hguards cursor (Nat.zero_le _)
  unfold runGuarded
  cases hrun : reader cursor with
  | ok value after =>
      rw [hrun] at hreader
      rw [hreader.1]
      rfl
  | error error after =>
      rw [hrun] at hreader
      rw [hreader.1]
      rfl

end AmfReader

namespace Amf0

open AmfReader

def guardedValuesUpTo : (count : Nat) → List AmfValue →
    GuardedReader Amf0Tables (List AmfValue)
  | 0, done => return done.reverse
  | count + 1, done => fun nested => do
      match ← guardedValue true nested with
      | (.ok value, nested) => guardedValuesUpTo count (value :: done) nested
      | (.error .unexpectedEnd, nested) => return (.ok done.reverse, nested)
      | (.error error, nested) => return (.error error, nested)

theorem guards_valuesUpTo {least : Nat} (count : Nat) (done : List AmfValue) :
    Guards slots (fun _ => 0) least (guardedValuesUpTo count done)
      (valuesUpTo count done) := by
  induction count generalizing done with
  | zero => exact guards_pure _
  | succ count ih =>
      intro cursor hleast
      have hvalue := @guards_value least true cursor hleast
      simp only [guardedValuesUpTo, valuesUpTo]
      cases hrun : value true cursor with
      | ok value after =>
          rw [hrun] at hvalue
          rw [hvalue.1]
          exact ih (value :: done) after hvalue.2
      | error error after =>
          rw [hrun] at hvalue
          rw [hvalue.1]
          cases error <;> exact ⟨rfl, hvalue.2⟩

/-- All values that are left, as far as they go. -/
theorem guards_valuesLeft {least : Nat} :
    Guards slots (fun _ => 0) least
      (fun nested => guardedValuesUpTo nested.cursor.rest.length [] nested)
      (fun cursor => valuesUpTo cursor.rest.length [] cursor) :=
  fun cursor => guards_valuesUpTo cursor.rest.length [] cursor

end Amf0

/-! ## Data -/

namespace DataMessage

def guardedDescribed? (message : DataMessage) : Partial (Option (List AmfValue)) :=
  if message.name = setDataFrame then
    match message.values.head? with
    | some (.text first) =>
        if first = onMetaData then do
          let others ← slice message.values 1 message.values.length
          return some others
        else return none
    | _ => return none
  else if message.name = onMetaData then return some message.values
  else return none

def guardedMetadata? (message : DataMessage) : Partial (Option Properties) := do
  let described ← message.guardedDescribed?
  return described.bind (·.findSome? AmfValue.properties?)

theorem guardedMetadata?_eq (message : DataMessage) :
    message.guardedMetadata? = .ok message.metadata? := by
  obtain ⟨name, values, streamId⟩ := message
  have hdescribed : guardedDescribed? ⟨name, values, streamId⟩ =
      .ok (described? ⟨name, values, streamId⟩) := by
    simp only [guardedDescribed?, described?]
    split
    · cases values with
      | nil => rfl
      | cons first others =>
          have hothers : slice (first :: others) 1 (first :: others).length = .ok others := by
            have hone : 1 ≤ (first :: others).length := Nat.succ_le_succ (Nat.zero_le _)
            rw [slice_of_le hone (Nat.le_refl _)]
            simp
          cases first with
          | text content =>
              simp only [List.head?_cons, hothers]
              split <;> rfl
          | _ => rfl
    · split <;> rfl
  rw [guardedMetadata?, hdescribed]
  rfl

end DataMessage

/-! ## Control -/

/-- Four bytes of a payload that is known to have them. -/
def guardedWord32 (payload : Bytes) : Partial (UInt32 × Bytes) := do
  let (word, rest) ← splitAt 4 payload
  return (Bytes.word32 word, rest)

theorem guardedWord32_eq {payload : Bytes} (hfits : 4 ≤ payload.length) :
    guardedWord32 payload = .ok (Bytes.word32 (payload.take 4), payload.drop 4) := by
  rw [guardedWord32, splitAt_of_le hfits]
  rfl

namespace UserControlEvent

def guardedRead (payload : Bytes) : Partial (Except ProtocolError UserControlEvent) :=
  if payload.length < 6 then return .error .invalidChunkHeader
  else do
    let (kind, fields) ← splitAt 2 payload
    match Bytes.number kind with
    | 0 => return .ok (.streamBegin (← guardedWord32 fields).1)
    | 1 => return .ok (.streamEnd (← guardedWord32 fields).1)
    | 2 => return .ok (.streamDry (← guardedWord32 fields).1)
    | 3 =>
        if fields.length < 8 then return .error .invalidChunkHeader
        else
          let (streamId, rest) ← guardedWord32 fields
          let (milliseconds, _) ← guardedWord32 rest
          return .ok (.setBufferLength streamId milliseconds)
    | 4 => return .ok (.streamIsRecorded (← guardedWord32 fields).1)
    | 6 => return .ok (.pingRequest (← guardedWord32 fields).1)
    | 7 => return .ok (.pingResponse (← guardedWord32 fields).1)
    | _ => return .ok (.unknown (Bytes.word16 kind) fields)

theorem guardedRead_eq (payload : Bytes) : guardedRead payload = .ok (read payload) := by
  have hfields : (payload.drop 2).length = payload.length - 2 := List.length_drop
  simp only [guardedRead, read, Bytes.split?_eq]
  by_cases hshort : payload.length < 6
  · rw [if_pos hshort]
    by_cases hkind : 2 ≤ payload.length
    · simp only [if_pos hkind]
      rw [if_neg (by omega)]
      rfl
    · simp only [if_neg hkind]
      rfl
  · rw [if_neg hshort, splitAt_of_le (by omega), ok_bind]
    simp only [if_pos (show 2 ≤ payload.length by omega),
      if_pos (show 4 ≤ (payload.drop 2).length by omega),
      guardedWord32_eq (show 4 ≤ (payload.drop 2).length by omega)]
    generalize Bytes.number (payload.take 2) = kind
    generalize payload.drop 2 = fields at hfields ⊢
    split
    · rfl
    · rfl
    · rfl
    · have hlength : (fields.drop 4).length = fields.length - 4 := List.length_drop
      by_cases hend : fields.length < 8
      · rw [if_pos hend]
        simp only [if_neg (show ¬4 ≤ (fields.drop 4).length by omega)]
        rfl
      · have hsecond : 4 ≤ (fields.drop 4).length := by omega
        rw [if_neg hend, ok_bind, guardedWord32_eq hsecond]
        simp only [if_pos hsecond]
        rfl
    · rfl
    · rfl
    · rfl
    · simp only [pure_eq]

end UserControlEvent

namespace Message

def guardedArgument (payload : Bytes) : Partial (Except ProtocolError UInt32) :=
  if payload.length < 4 then return .error .invalidChunkHeader
  else do
    let (word, _) ← guardedWord32 payload
    return .ok word

def guardedReadBandwidth (payload : Bytes) : Partial (Except ProtocolError Message) :=
  if payload.length < 5 then return .error .invalidChunkHeader
  else do
    let (size, rest) ← guardedWord32 payload
    let (limit, _) ← splitByte rest
    return .ok (.setPeerBandwidth size limit)

def guardedDropFormatByte (payload : Bytes) : Partial Bytes :=
  if payload.head? = some 0 then do
    let (_, rest) ← splitAt 1 payload
    return rest
  else return payload

def guardedReadData (streamId : UInt32) (payload : Bytes) :
    Partial (Except AmfError DataMessage) :=
  let reader : GuardedReader Amf0Tables DataMessage := do
    let first ← Amf0.guardedValue true
    let values ← fun nested => Amf0.guardedValuesUpTo nested.cursor.rest.length [] nested
    return ⟨first.text?.getD "", values, streamId⟩
  AmfReader.runGuarded reader ⟨{}, payload⟩

def guardedRead (wire : WireMessage) : Partial (Except Error Message) :=
  let payload := wire.payload
  match wire.typeId with
  | 1 => do
      let size ← guardedArgument payload
      return ofProtocol (size.map fun size => .setChunkSize (masked size))
  | 2 => return ofProtocol ((← guardedArgument payload).map .abort)
  | 3 => return ofProtocol ((← guardedArgument payload).map .acknowledgement)
  | 4 => return ofProtocol ((← UserControlEvent.guardedRead payload).map .userControl)
  | 5 => return ofProtocol ((← guardedArgument payload).map .windowAckSize)
  | 6 => return ofProtocol (← guardedReadBandwidth payload)
  | 8 => return .ok (.audio wire.timestamp payload)
  | 9 => return .ok (.video wire.timestamp payload)
  | 15 => do
      let payload ← guardedDropFormatByte payload
      let data ← guardedReadData wire.streamId payload
      return (data.map .data).mapError .amf
  | 17 => do
      let payload ← guardedDropFormatByte payload
      return .ok (.command wire.streamId payload)
  | 18 => do
      let data ← guardedReadData wire.streamId payload
      return (data.map .data).mapError .amf
  | 20 => return .ok (.command wire.streamId payload)
  | typeId => return .ok (.unknown typeId payload)

theorem guardedArgument_eq (payload : Bytes) :
    guardedArgument payload = .ok (argument payload) := by
  unfold guardedArgument argument
  rw [Bytes.split?_eq]
  by_cases hshort : payload.length < 4
  · rw [if_pos hshort, if_neg (Nat.not_le_of_lt hshort)]
    rfl
  · have hwhole := Nat.le_of_not_lt hshort
    rw [if_neg hshort, if_pos hwhole, guardedWord32_eq hwhole]
    rfl

theorem guardedReadBandwidth_eq (payload : Bytes) :
    guardedReadBandwidth payload = .ok (readBandwidth payload) := by
  have hrest : (payload.drop 4).length = payload.length - 4 := List.length_drop
  unfold guardedReadBandwidth readBandwidth
  rw [Bytes.split?_eq]
  by_cases hsize : 4 ≤ payload.length
  · rw [if_pos hsize, guardedWord32_eq hsize]
    cases hlimit : payload.drop 4 with
    | nil =>
        rw [hlimit, List.length_nil] at hrest
        rw [if_pos (by omega)]
        rfl
    | cons limit rest =>
        rw [hlimit, List.length_cons] at hrest
        rw [if_neg (by omega)]
        rfl
  · rw [if_neg hsize, if_pos (by omega)]
    rfl

theorem guardedDropFormatByte_eq (payload : Bytes) :
    guardedDropFormatByte payload = .ok (dropFormatByte payload) := by
  cases payload with
  | nil => rfl
  | cons first rest =>
      by_cases hzero : first = 0
      · subst hzero
        rfl
      · simp [guardedDropFormatByte, dropFormatByte, hzero]

theorem guardedReadData_eq (streamId : UInt32) (payload : Bytes) :
    guardedReadData streamId payload = .ok (readData streamId payload) := by
  have hguards := (@Amf0.guards_value 0 true).bind fun first =>
    Amf0.guards_valuesLeft.bind fun values => AmfReader.guards_pure
      (⟨first.text?.getD "", values, streamId⟩ : DataMessage)
  refine (hguards.run_eq ⟨{}, payload⟩).trans (congrArg Except.ok ?_)
  unfold readData
  simp only
  cases (Amf0.value true >>= fun first => _ : Amf0Reader DataMessage) ⟨{}, payload⟩ <;> rfl

/-- Whatever its type and its payload, a message is read or refused. -/
theorem guardedRead_eq (wire : WireMessage) : guardedRead wire = .ok (read wire) := by
  obtain ⟨chunkStream, timestamp, typeId, streamId, payload⟩ := wire
  unfold guardedRead read
  simp only [guardedArgument_eq, guardedReadBandwidth_eq, guardedDropFormatByte_eq,
    guardedReadData_eq, UserControlEvent.guardedRead_eq, ok_bind]
  split
  all_goals simp only [pure_eq]

end Message

/-! ## Commands -/

namespace ConnectParameters

/-- The place in bytes of the first mark, if there is one. -/
def placeOf? (mark : Char) : List Char → Option Nat
  | [] => none
  | first :: rest =>
      if first = mark then some 0
      else (placeOf? mark rest).map (first.utf8Size + ·)

def guardedWithoutQuery (app : String) : Partial String :=
  match placeOf? '?' app.toList with
  | some place => do
      let kept ← truncate app.toList place
      return String.ofList kept
  | none => return app

def guardedOfProperties (properties : Properties) : Partial ConnectParameters := do
  let parameters : ConnectParameters :=
    properties.foldl (fun parameters (name, value) => set parameters name value) {}
  let app ← guardedWithoutQuery parameters.app
  return { parameters with app := app }

/-- The place of a mark is between two characters. -/
theorem placeOf?_eq (mark : Char) (characters : List Char) :
    placeOf? mark characters =
      if mark ∈ characters then
        some (String.ofList (characters.takeWhile (· ≠ mark))).utf8ByteSize
      else none := by
  induction characters with
  | nil => rfl
  | cons first rest ih =>
      by_cases hfirst : first = mark
      · subst hfirst
        simp [placeOf?]
      · simp only [placeOf?, if_neg hfirst, ih, List.mem_cons, Ne.symm hfirst, false_or]
        split <;> simp [hfirst]

theorem guardedWithoutQuery_eq (app : String) :
    guardedWithoutQuery app = .ok (withoutQuery app) := by
  unfold guardedWithoutQuery withoutQuery
  rw [placeOf?_eq]
  by_cases hquery : '?' ∈ app.toList
  · rw [if_pos hquery]
    have hcut := truncate_append (app.toList.takeWhile (· ≠ '?'))
      (app.toList.dropWhile (· ≠ '?'))
    rw [List.takeWhile_append_dropWhile] at hcut
    simp only [hcut, ok_bind]
    rfl
  · rw [if_neg hquery]
    have hwhole : app.toList.takeWhile (· ≠ '?') = app.toList :=
      List.takeWhile_eq_self_iff.mpr fun character hmem =>
        decide_eq_true (ne_of_mem_of_not_mem hmem hquery)
    rw [hwhole, String.ofList_toList]
    rfl

theorem guardedOfProperties_eq (properties : Properties) :
    guardedOfProperties properties = .ok (ofProperties properties) := by
  simp only [guardedOfProperties, guardedWithoutQuery_eq, ok_bind]
  rfl

end ConnectParameters

namespace Command

def guardedReadConnect (parameters : List AmfValue) : Partial Command := do
  let connect ←
    match parameters[0]? with
    | some value => ConnectParameters.guardedOfProperties (value.properties?.getD [])
    | none => pure ({} : ConnectParameters)
  return .connect { connect with arguments := parameters[1]?.bind AmfValue.properties? }

/-- Of all commands only the one that connects cuts a text. -/
def guardedInterpret (name : String) (shape : Shape) (parameters : List AmfValue) :
    Partial Command :=
  if name = "connect" then guardedReadConnect parameters
  else return shape.read parameters

theorem guardedInterpret_eq {name : String} {shape : Shape} (hshape : shape? name = some shape)
    (parameters : List AmfValue) :
    guardedInterpret name shape parameters = .ok (shape.read parameters) := by
  unfold guardedInterpret
  by_cases hconnect : name = "connect"
  · subst hconnect
    obtain rfl : (⟨2, readConnect⟩ : Shape) = shape := Option.some.inj hshape
    rw [if_pos rfl]
    cases hfirst : parameters[0]? with
    | none => simp [guardedReadConnect, readConnect, hfirst]
    | some value =>
        simp [guardedReadConnect, readConnect, hfirst,
          ConnectParameters.guardedOfProperties_eq, ConnectParameters.ofValue]
  · rw [if_neg hconnect]
    rfl

end Command

namespace CommandCall

open AmfReader

def guardedReadTransaction : GuardedReader Amf0Tables Binary64 := fun nested => do
  match ← Amf0.guardedValue true nested with
  | (.ok value, nested) => return (.ok (value.number?.getD .zero), nested)
  | (.error .unexpectedEnd, nested) => return (.ok .zero, nested)
  | (.error error, nested) => return (.error error, nested)

def guardedAfterName (streamId : UInt32) (name : String) (shape : Command.Shape) :
    GuardedReader Amf0Tables CommandCall := do
  let transaction ← guardedReadTransaction
  let parameters ← Amf0.guardedValuesUpTo shape.arity []
  let command ← Command.guardedInterpret name shape parameters
  return ⟨name, transaction, streamId, command⟩

def guardedRead (streamId : UInt32) (payload : Bytes) :
    Partial (Except Error (Option CommandCall)) := do
  match ← Amf0.guardedValue true ⟨fun _ => 0, ⟨{}, payload⟩⟩ with
  | (.error error, _) => return .error (.amf error)
  | (.ok (.text name), nested) =>
      match Command.shape? name with
      | none => return .ok none
      | some shape =>
          match ← guardedAfterName streamId name shape nested with
          | (.ok call, _) => return .ok (some call)
          | (.error error, _) => return .error (.amf error)
  | (.ok other, _) =>
      return .error (.protocol
        (.invalidCommand ("expected command name, got " ++ other.describe)))

variable {least : Nat}

theorem guards_readTransaction :
    Guards Amf0.slots (fun _ => 0) least guardedReadTransaction readTransaction := by
  intro cursor hleast
  have hvalue := @Amf0.guards_value least true cursor hleast
  simp only [guardedReadTransaction, readTransaction]
  cases hrun : Amf0.value true cursor with
  | ok value after =>
      rw [hrun] at hvalue
      rw [hvalue.1]
      exact ⟨rfl, hvalue.2⟩
  | error error after =>
      rw [hrun] at hvalue
      rw [hvalue.1]
      cases error <;> exact ⟨rfl, hvalue.2⟩

theorem guards_afterName (streamId : UInt32) {name : String} {shape : Command.Shape}
    (hshape : Command.shape? name = some shape) :
    Guards Amf0.slots (fun _ => 0) least (guardedAfterName streamId name shape)
      (afterName streamId name shape) := by
  refine guards_readTransaction.bind fun transaction =>
    (Amf0.guards_valuesUpTo _ []).bind fun parameters => ?_
  rw [Command.guardedInterpret_eq hshape]
  exact guards_pure _

/-- A command is read from any payload, or refused. -/
theorem guardedRead_eq (streamId : UInt32) (payload : Bytes) :
    guardedRead streamId payload = .ok (read streamId payload) := by
  have hvalue := @Amf0.guards_value 0 true ⟨{}, payload⟩ (Nat.zero_le _)
  unfold guardedRead read
  cases hrun : Amf0.value true ⟨{}, payload⟩ with
  | error error after =>
      rw [hrun] at hvalue
      rw [hvalue.1]
      rfl
  | ok value after =>
      rw [hrun] at hvalue
      rw [hvalue.1, ok_bind]
      cases value with
      | text name =>
          cases hshape : Command.shape? name with
          | none => simp [hshape]
          | some shape =>
              have hcall := @guards_afterName 0 streamId name shape hshape after (Nat.zero_le _)
              simp only [hshape]
              cases hbehind : afterName streamId name shape after with
              | ok call last =>
                  rw [hbehind] at hcall
                  rw [hcall.1]
                  rfl
              | error error last =>
                  rw [hbehind] at hcall
                  rw [hcall.1]
                  rfl
      | _ => rfl

end CommandCall

end LiveRelay
