import LiveRelay.Amf3Reading

/-!
# The older value format

Commands and metadata come in this format.  Every value starts with a marker.
Objects and arrays take an index in the order in which their markers stand,
and may be referred to by it; one that is still open reads as null.  One
marker switches to the newer format for a single value.

By default reading is lenient.  An object may end with the input or with an
empty name that has no end marker behind it, and a marker that means nothing
reads as undefined.  Strict reading takes these for errors.
-/

namespace LiveRelay

structure Amf0Tables where
  references : Array AmfValue := #[]
  newer : Amf3Tables := {}
  deriving Inhabited

abbrev Amf0Reader := AmfReader Amf0Tables

namespace Amf0

open AmfReader

def count16 : Amf0Reader Nat := do
  let bytes ← take 2
  return Bytes.number bytes

def count32 : Amf0Reader Nat := do
  let bytes ← take 4
  return Bytes.number bytes

def shortText : Amf0Reader String := do
  let count ← count16
  AmfReader.text count

def longText : Amf0Reader String := do
  let count ← count32
  AmfReader.text count

def reserve : Amf0Reader Nat :=
  update fun known =>
    (known.references.size, { known with references := known.references.push .null })

def complete (slot : Nat) (value : AmfValue) : Amf0Reader AmfValue :=
  update fun known =>
    (value, { known with references := known.references.setIfInBounds slot value })

/-- Behind the empty name: the end marker is consumed if it is there. -/
def objectEnd (lenient : Bool) : Amf0Reader Unit := fun cursor =>
  match cursor.rest with
  | 0x09 :: rest => .ok () { cursor with rest := rest }
  | [] =>
      if lenient then .ok () cursor else .error .unexpectedEnd cursor
  | _ :: _ =>
      if lenient then .ok () cursor else .error .invalidObjectEnd cursor

/-- Properties up to the end of the object, at most one for each byte of
`bound`. -/
def propertiesWithin (lenient : Bool) (child : Amf0Reader AmfValue) :
    (bound : Bytes) → Properties → Amf0Reader Properties
  | [], done => if lenient then return done else throw .unexpectedEnd
  | _ :: bound, done => fun cursor =>
      if cursor.rest.isEmpty && lenient then .ok done cursor
      else
        (do
          let name ← shortText
          if name.isEmpty then
            objectEnd lenient
            return done
          else
            let value ← child
            propertiesWithin lenient child bound (done.put name value)
          : Amf0Reader Properties) cursor

def properties (lenient : Bool) (child : Amf0Reader AmfValue) :
    Amf0Reader Properties := fun cursor =>
  propertiesWithin lenient child cursor.rest [] cursor

def reference : Amf0Reader AmfValue := do
  let index ← count16
  match (← tables).references[index]? with
  | some value => return value
  | none => throw (.invalidReference (UInt16.ofNat index))

/-- One value of the newer format, with its own tables. -/
def newerValue : Amf0Reader AmfValue := fun ⟨⟨references, newer⟩, rest⟩ =>
  match Amf3.value ⟨newer, rest⟩ with
  | .ok value inner => .ok value ⟨⟨references, inner.tables⟩, inner.rest⟩
  | .error error inner => .error error ⟨⟨references, inner.tables⟩, inner.rest⟩

def body (lenient : Bool) (child : Amf0Reader AmfValue) (marker : UInt8) :
    Amf0Reader AmfValue :=
  match marker with
  | 0x00 => return .number (← binary64)
  | 0x01 => return .boolean ((← byte) != 0)
  | 0x02 => return .text (← shortText)
  | 0x03 => do
      let slot ← reserve
      let properties ← properties lenient child
      complete slot (.object properties)
  | 0x05 => return .null
  | 0x06 => return .undefined
  | 0x07 => reference
  | 0x08 => do
      let _ ← count32
      let slot ← reserve
      let properties ← properties lenient child
      complete slot (.ecmaArray properties)
  | 0x0A => do
      let count ← count32
      let slot ← reserve
      let items ← items child count []
      complete slot (.strictArray items)
  | 0x0B => do
      let bytes ← take 10
      return .date ⟨Bytes.word64 (bytes.take 8)⟩
  | 0x0C => return .text (← longText)
  | 0x0D => return .undefined
  | 0x0F => return .xml (← longText)
  | 0x10 => do
      let className ← shortText
      let slot ← reserve
      let properties ← properties lenient child
      complete slot (.typedObject className properties)
  | 0x11 => newerValue
  | other => if lenient then return .undefined else throw (.unknownMarker other)

/-- One value, nested at most `budget` deep. -/
def valueWithin (lenient : Bool) : (budget : Nat) → Amf0Reader AmfValue
  | 0 => marked none
  | budget + 1 => marked (some (body lenient (valueWithin lenient budget)))

def value (lenient : Bool) : Amf0Reader AmfValue :=
  valueWithin lenient AmfValue.maximumNesting

/-- The values of one message, read leniently. -/
def valuesOf (bytes : Bytes) : Except AmfError (List AmfValue) :=
  let read := row (value true) ⟨{}, bytes⟩
  match read.error with
  | none => .ok read.values
  | some error => .error error

end Amf0

end LiveRelay
