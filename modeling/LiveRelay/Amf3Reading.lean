import LiveRelay.AmfReader

/-!
# The newer value format

Values of this format stand behind a marker inside the older one.  Texts,
complex values and the shapes of objects are sent once and referred to by
their index afterwards: the lowest bit of a header tells an index from an
inline form.  A complex value takes its index before its members are read and
is null until it is complete.  The empty text never has an index.
-/

namespace LiveRelay

/-- The shape of an object: its class, the members that come in a fixed order,
and whether members with names of their own may follow. -/
structure Amf3Traits where
  className : String
  isDynamic : Bool
  sealedNames : List String
  deriving DecidableEq, Inhabited

structure Amf3Tables where
  texts : Array String := #[]
  objects : Array AmfValue := #[]
  traits : Array Amf3Traits := #[]
  deriving Inhabited

abbrev Amf3Reader := AmfReader Amf3Tables

namespace Amf3

open AmfReader

/-- Seven bits from each byte whose top bit says that another one follows; a
fourth byte gives all its eight bits. -/
def compactBits : (more : Nat) → Nat → Amf3Reader Nat
  | 0, value => do
      let last ← byte
      return value * 256 + last.toNat
  | more + 1, value => do
      let next ← byte
      let value := value * 128 + next.toNat % 128
      if next < 128 then return value else compactBits more value

/-- An unsigned number of 29 bits in one to four bytes. -/
def compact : Amf3Reader Nat :=
  compactBits 3 0

/-- The upper half of the 29-bit numbers stands for the negative ones. -/
def signed29 (value : Nat) : Int32 :=
  if value < 0x10000000 then Int32.ofInt value
  else Int32.ofInt ((value : Int) - 0x20000000)

/-- Errors show the low 16 bits of an index. -/
def badReference {α : Type} (index : Nat) : Amf3Reader α :=
  throw (.invalidReference (UInt16.ofNat index))

def text : Amf3Reader String := do
  let header ← compact
  if header % 2 = 0 then
    match (← tables).texts[header / 2]? with
    | some content => return content
    | none => badReference (header / 2)
  else
    let content ← AmfReader.text (header / 2)
    if content.isEmpty then return content
    else
      update fun known => (content, { known with texts := known.texts.push content })

/-- The value a header refers to, or else what reads the inline form. -/
def orReference (inlined : (header : Nat) → Amf3Reader AmfValue) :
    Amf3Reader AmfValue := do
  let header ← compact
  if header % 2 = 0 then
    match (← tables).objects[header / 2]? with
    | some value => return value
    | none => badReference (header / 2)
  else inlined header

def remember (value : AmfValue) : Amf3Reader AmfValue :=
  update fun known => (value, { known with objects := known.objects.push value })

def reserve : Amf3Reader Nat :=
  update fun known =>
    (known.objects.size, { known with objects := known.objects.push .null })

def complete (slot : Nat) (value : AmfValue) : Amf3Reader AmfValue :=
  update fun known =>
    (value, { known with objects := known.objects.setIfInBounds slot value })

/-- Named members up to the empty name, at most one for each byte of
`bound`. -/
def members (child : Amf3Reader AmfValue) :
    (bound : Bytes) → Properties → Amf3Reader Properties
  | [], _ => throw .unexpectedEnd
  | _ :: bound, properties => do
      let name ← text
      if name.isEmpty then return properties
      else
        let value ← child
        members child bound (properties.put name value)

/-- Named members, bounded by what is left of the input. -/
def dynamicMembers (child : Amf3Reader AmfValue) (properties : Properties) :
    Amf3Reader Properties := fun cursor =>
  members child cursor.rest properties cursor

def sealedMembers (child : Amf3Reader AmfValue) :
    (names : List String) → Properties → Amf3Reader Properties
  | [], properties => return properties
  | name :: names, properties => do
      let value ← child
      sealedMembers child names (properties.put name value)

def names : (count : Nat) → List String → Amf3Reader (List String)
  | 0, done => return done.reverse
  | count + 1, done => do
      let name ← text
      names count (name :: done)

/-- Objects that write themselves in a way of their own cannot be read. -/
def traits (header : Nat) : Amf3Reader Amf3Traits := do
  if header / 2 % 2 = 0 then
    match (← tables).traits[header / 4]? with
    | some traits => return traits
    | none => badReference (header / 4)
  else if header / 4 % 2 = 1 then throw (.unknownMarker 0x0A)
  else
    let className ← text
    let sealedNames ← names (header / 16) []
    let traits : Amf3Traits := ⟨className, header / 8 % 2 == 1, sealedNames⟩
    update fun known => (traits, { known with traits := known.traits.push traits })

/-- Dense items of an array that also has named members take their positions
for names, and stand before members of the same name. -/
def numbered (properties : Properties) (items : List AmfValue) : Properties :=
  let positions : Properties :=
    items.zipIdx.map fun (item, index) => (toString index, item)
  positions ++ properties.filter fun (name, _) => !positions.contains name

def array (child : Amf3Reader AmfValue) (header : Nat) :
    Amf3Reader AmfValue := do
  let slot ← reserve
  let named ← dynamicMembers child []
  let dense ← items child (header / 2) []
  complete slot
    (if named.isEmpty then .strictArray dense
      else .ecmaArray (numbered named dense))

def object (child : Amf3Reader AmfValue) (header : Nat) :
    Amf3Reader AmfValue := do
  let slot ← reserve
  let traits ← traits header
  let fixed ← sealedMembers child traits.sealedNames []
  let properties ←
    if traits.isDynamic then dynamicMembers child fixed else pure fixed
  complete slot
    (if traits.className.isEmpty then .object properties
      else .typedObject traits.className properties)

def xml (header : Nat) : Amf3Reader AmfValue := do
  let content ← AmfReader.text (header / 2)
  remember (.xml content)

def date (_ : Nat) : Amf3Reader AmfValue := do
  let milliseconds ← binary64
  remember (.date milliseconds)

def byteArray (header : Nat) : Amf3Reader AmfValue := do
  let content ← take (header / 2)
  remember (.byteArray content)

def body (child : Amf3Reader AmfValue) (marker : UInt8) :
    Amf3Reader AmfValue :=
  match marker with
  | 0x00 => return .undefined
  | 0x01 => return .null
  | 0x02 => return .boolean false
  | 0x03 => return .boolean true
  | 0x04 => return .integer (signed29 (← compact))
  | 0x05 => return .number (← binary64)
  | 0x06 => return .text (← text)
  | 0x07 => orReference xml
  | 0x08 => orReference date
  | 0x09 => orReference (array child)
  | 0x0A => orReference (object child)
  | 0x0B => orReference xml
  | 0x0C => orReference byteArray
  | other => throw (.unknownMarker other)

/-- One value, nested at most `budget` deep. -/
def valueWithin : (budget : Nat) → Amf3Reader AmfValue
  | 0 => marked none
  | budget + 1 => marked (some (body (valueWithin budget)))

def value : Amf3Reader AmfValue :=
  valueWithin AmfValue.maximumNesting

end Amf3

end LiveRelay
