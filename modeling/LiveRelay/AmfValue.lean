import LiveRelay.Binary64
import LiveRelay.Bytes
import LiveRelay.Table

/-!
# Action message values

Commands and metadata are sequences of dynamically typed values.  Both wire
formats, the older one and the newer one, decode into the same tree.  Commands
look only at texts, numbers, truth values and properties; the other kinds are
kept so that metadata passes from a publisher to its viewers unchanged.

Properties are listed in the order in which they were read.  Two values are
the `same` when they agree up to that order, numbers being compared as
numbers.
-/

namespace LiveRelay

inductive AmfValue where
  | null
  | undefined
  | boolean (flag : Bool)
  | number (value : Binary64)
  /-- Only the newer format sends integers, of 29 bits. -/
  | integer (value : Int32)
  | text (content : String)
  | object (properties : List (String × AmfValue))
  | ecmaArray (properties : List (String × AmfValue))
  | strictArray (items : List AmfValue)
  | typedObject (className : String) (properties : List (String × AmfValue))
  /-- Milliseconds since 1970. -/
  | date (milliseconds : Binary64)
  | xml (content : String)
  | byteArray (content : Bytes)
  deriving Inhabited

abbrev Properties := Fields AmfValue

namespace AmfValue

/-! ## Views -/

def text? : AmfValue → Option String
  | .text content => some content
  | _ => none

def number? : AmfValue → Option Binary64
  | .number value => some value
  | .integer value => some (.ofInt value.toInt)
  | _ => none

def boolean? : AmfValue → Option Bool
  | .boolean flag => some flag
  | _ => none

def properties? : AmfValue → Option Properties
  | .object properties => some properties
  | .ecmaArray properties => some properties
  | .typedObject _ properties => some properties
  | _ => none

def isNullOrUndefined : AmfValue → Bool
  | .null => true
  | .undefined => true
  | _ => false

def isNull : AmfValue → Bool
  | .null => true
  | _ => false

def get? (value : AmfValue) (name : String) : Option AmfValue :=
  value.properties?.bind (·.get? name)

def getText? (value : AmfValue) (name : String) : Option String :=
  (value.get? name).bind text?

def getNumber? (value : AmfValue) (name : String) : Option Binary64 :=
  (value.get? name).bind number?

/-! ## Size -/

mutual

/-- The most properties that any one value of a tree has itself. -/
def mostProperties : AmfValue → Nat
  | .object properties => max properties.length (mostPropertiesIn properties)
  | .ecmaArray properties => max properties.length (mostPropertiesIn properties)
  | .typedObject _ properties =>
      max properties.length (mostPropertiesIn properties)
  | .strictArray items => mostPropertiesAmong items
  | _ => 0

def mostPropertiesAmong : List AmfValue → Nat
  | [] => 0
  | item :: items => max (mostProperties item) (mostPropertiesAmong items)

def mostPropertiesIn : List (String × AmfValue) → Nat
  | [] => 0
  | (_, value) :: rest => max (mostProperties value) (mostPropertiesIn rest)

end

/-! ## Sameness -/

mutual

def same : AmfValue → AmfValue → Bool
  | .null, .null => true
  | .undefined, .undefined => true
  | .boolean left, .boolean right => left == right
  | .number left, .number right => left.same right
  | .integer left, .integer right => left == right
  | .text left, .text right => left == right
  | .object left, .object right =>
      left.length == right.length && sameIn left right
  | .ecmaArray left, .ecmaArray right =>
      left.length == right.length && sameIn left right
  | .strictArray left, .strictArray right => sameItems left right
  | .typedObject leftName left, .typedObject rightName right =>
      leftName == rightName && left.length == right.length &&
        sameIn left right
  | .date left, .date right => left.same right
  | .xml left, .xml right => left == right
  | .byteArray left, .byteArray right => left == right
  | _, _ => false

def sameItems : List AmfValue → List AmfValue → Bool
  | [], [] => true
  | left :: lefts, right :: rights => same left right && sameItems lefts rights
  | _, _ => false

/-- Every property on the left is on the right. -/
def sameIn : List (String × AmfValue) → Properties → Bool
  | [], _ => true
  | (name, left) :: rest, properties =>
      (match properties.get? name with
        | some right => same left right
        | none => false) && sameIn rest properties

end

end AmfValue

end LiveRelay
