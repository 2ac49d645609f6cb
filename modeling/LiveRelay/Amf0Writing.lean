import LiveRelay.AmfValue

/-!
# Writing values

Only the older format is written.  An integer is written as the number it is
and a byte array, which the format does not have, as null.  A text of more
than 65535 bytes takes the long form.  Names and class names have no long
form: of a longer one the first 65535 bytes are written.
-/

namespace LiveRelay

namespace Amf0

/-- A text with a 16-bit length, cut to what that length can hold. -/
def writeName (name : String) : Bytes :=
  let bytes := (Bytes.ofText name).take 0xFFFF
  Bytes.ofNumber 2 bytes.length ++ bytes

def writeText (content : String) : Bytes :=
  let bytes := Bytes.ofText content
  if 0xFFFF < bytes.length then
    0x0C :: Bytes.ofNumber 4 bytes.length ++ bytes
  else
    0x02 :: Bytes.ofNumber 2 bytes.length ++ bytes

def objectEndMark : Bytes := [0, 0, 0x09]

mutual

def write : AmfValue → Bytes
  | .null => [0x05]
  | .undefined => [0x06]
  | .boolean flag => [0x01, if flag then 1 else 0]
  | .number value => 0x00 :: Bytes.ofWord64 value.bits
  | .integer value => 0x00 :: Bytes.ofWord64 (Binary64.ofInt value.toInt).bits
  | .text content => writeText content
  | .object properties => 0x03 :: writeProperties properties
  | .ecmaArray properties =>
      0x08 :: Bytes.ofNumber 4 properties.length ++ writeProperties properties
  | .typedObject className properties =>
      0x10 :: writeName className ++ writeProperties properties
  | .strictArray items =>
      0x0A :: Bytes.ofNumber 4 items.length ++ writeItems items
  | .date milliseconds =>
      0x0B :: Bytes.ofWord64 milliseconds.bits ++ [0, 0]
  | .xml content =>
      0x0F :: Bytes.ofNumber 4 (Bytes.ofText content).length ++
        Bytes.ofText content
  | .byteArray _ => [0x05]

def writeItems : List AmfValue → Bytes
  | [] => []
  | item :: items => write item ++ writeItems items

def writeProperties : List (String × AmfValue) → Bytes
  | [] => objectEndMark
  | (name, value) :: rest => writeName name ++ write value ++ writeProperties rest

end

end Amf0

end LiveRelay
