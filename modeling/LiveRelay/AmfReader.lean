import LiveRelay.AmfValue
import LiveRelay.Errors

/-!
# Reading encoded values

A reader moves a cursor over the bytes of a message and keeps reference tables
beside it.  When it fails, the cursor stays where the fault was found and the
tables stay as they were filled up to there, since a caller may go on with
them.  A field that is not complete is not consumed.
-/

namespace LiveRelay

structure AmfCursor (Tables : Type) where
  tables : Tables
  rest : Bytes

abbrev AmfReader (Tables : Type) := EStateM AmfError (AmfCursor Tables)

/-- Values may be nested this deep. -/
def AmfValue.maximumNesting : Nat := 64

namespace AmfReader

variable {Tables : Type}

def take (count : Nat) : AmfReader Tables Bytes := fun cursor =>
  match cursor.rest.split? count with
  | some (taken, rest) => .ok taken { cursor with rest := rest }
  | none => .error .unexpectedEnd cursor

def byte : AmfReader Tables UInt8 := fun cursor =>
  match cursor.rest with
  | first :: rest => .ok first { cursor with rest := rest }
  | [] => .error .unexpectedEnd cursor

def binary64 : AmfReader Tables Binary64 := do
  let bytes ← take 8
  return ⟨Bytes.word64 bytes⟩

/-- A text of known length in bytes; it is consumed even if it is malformed. -/
def text (count : Nat) : AmfReader Tables String := do
  let bytes ← take count
  match Bytes.toText? bytes with
  | some content => return content
  | none => throw .invalidText

def tables : AmfReader Tables Tables := fun cursor =>
  .ok cursor.tables cursor

/-- The tables are changed, and what the change finds is handed out. -/
def update {α : Type} (change : Tables → α × Tables) : AmfReader Tables α :=
  fun ⟨tables, rest⟩ =>
    let (found, tables) := change tables
    .ok found ⟨tables, rest⟩

/-- The next value, whose marker is consumed only if the nesting budget admits
it; an exhausted input is reported first. -/
def marked (nested : Option (UInt8 → AmfReader Tables AmfValue)) :
    AmfReader Tables AmfValue := fun cursor =>
  match cursor.rest, nested with
  | [], _ => .error .unexpectedEnd cursor
  | _ :: _, none => .error .nestingTooDeep cursor
  | marker :: rest, some read => read marker { cursor with rest := rest }

/-- Values in a row, put before those already read, last first. -/
def items (child : AmfReader Tables AmfValue) :
    (count : Nat) → List AmfValue → AmfReader Tables (List AmfValue)
  | 0, done => return done.reverse
  | count + 1, done => do
      let value ← child
      items child count (value :: done)

/-- Values in a row, the error that ends them if one does, and where the reader
stands then. -/
structure Row (Tables : Type) where
  values : List AmfValue
  error : Option AmfError
  cursor : AmfCursor Tables

/-- A single value, even if the input is exhausted. -/
def single (child : AmfReader Tables AmfValue) (cursor : AmfCursor Tables) :
    Row Tables :=
  match child cursor with
  | .ok value cursor => ⟨[value], none, cursor⟩
  | .error error cursor => ⟨[], some error, cursor⟩

/-- Values until the input ends, at most one for each byte of `bound`, put
before those already read, last first. -/
def rowWithin (child : AmfReader Tables AmfValue) :
    (bound : Bytes) → List AmfValue → AmfCursor Tables → Row Tables
  | [], done, cursor => ⟨done.reverse, none, cursor⟩
  | _ :: bound, done, cursor =>
      if cursor.rest.isEmpty then ⟨done.reverse, none, cursor⟩
      else
        match child cursor with
        | .ok value cursor => rowWithin child bound (value :: done) cursor
        | .error error cursor => ⟨done.reverse, some error, cursor⟩

/-- All values of the input. -/
def row (child : AmfReader Tables AmfValue) (cursor : AmfCursor Tables) :
    Row Tables :=
  rowWithin child cursor.rest [] cursor

end AmfReader

end LiveRelay
