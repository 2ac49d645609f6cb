import LiveRelay.AmfValue
import LiveRelay.CharacterClass
import LiveRelay.ShortestDecimal

/-!
# Values in error texts

An error about a value shows the value: its kind, then its content in
parentheses or braces.  Numbers are shown by their shortest decimal, in
positional form where the first digit lies between the fourth place after the
point and the sixteenth before it.  Texts are quoted.
-/

namespace LiveRelay

/-! ## Numbers -/

/-- The exponents of ten of the first digit between which a decimal is written
in positional form. -/
structure PositionalRange where
  smallest : Int
  largest : Int

def AmfValue.numberForm : PositionalRange := ⟨-4, 15⟩

namespace Decimal

/-- Positional form, with at least one digit on either side of the point. -/
def positional (decimal : Decimal) : String :=
  let digits := Nat.toDigits 10 decimal.digits
  if 0 ≤ decimal.exponent then
    String.ofList (digits ++ List.replicate decimal.exponent.toNat '0') ++ ".0"
  else
    let places := (-decimal.exponent).toNat
    let padded := List.replicate (places + 1 - digits.length) '0' ++ digits
    let whole := padded.length - places
    String.ofList (padded.take whole ++ '.' :: padded.drop whole)

/-- One digit before the point, and no point after a single digit. -/
def exponential (decimal : Decimal) : String :=
  let mantissa :=
    match Nat.toDigits 10 decimal.digits with
    | [] => []
    | [digit] => [digit]
    | digit :: digits => digit :: '.' :: digits
  String.ofList mantissa ++ s!"e{decimal.leadingExponent}"

def write (form : PositionalRange) (decimal : Decimal) : String :=
  if decimal.digits = 0 ∨
      (form.smallest ≤ decimal.leadingExponent ∧
        decimal.leadingExponent ≤ form.largest) then
    decimal.positional
  else decimal.exponential

end Decimal

def Binary64.write (form : PositionalRange) (number : Binary64) : String :=
  if number.isNaN then "NaN"
  else
    let sign := if number.isNegative then "-" else ""
    if number.isInfinite then sign ++ "inf"
    else sign ++ (Decimal.shortest number).write form

/-! ## Texts -/

/-- A quote, a backslash and four controls have a letter of their own.  Any other
character that would not be seen, or would join the one before it, is shown by
its code point. -/
def quotedChar (c : Char) : String :=
  if c = '"' then "\\\""
  else if c = '\\' then "\\\\"
  else if c = '\t' then "\\t"
  else if c = '\n' then "\\n"
  else if c = '\r' then "\\r"
  else if c.toNat = 0 then "\\0"
  else if CharacterClass.invisible.contains c ∨ CharacterClass.joining.contains c then
    "\\u\x7b" ++ String.ofList (Nat.toDigits 16 c.toNat) ++ "\x7d"
  else c.toString

def quoted (text : String) : String :=
  "\"" ++ String.join (text.toList.map quotedChar) ++ "\""

/-! ## Values -/

namespace AmfValue

mutual

def describe : AmfValue → String
  | .null => "Null"
  | .undefined => "Undefined"
  | .boolean flag => if flag then "Boolean(true)" else "Boolean(false)"
  | .number value => "Number(" ++ value.write numberForm ++ ")"
  | .integer value => s!"Integer({value.toInt})"
  | .text content => "String(" ++ quoted content ++ ")"
  | .object properties =>
      "Object(\x7b" ++ ", ".intercalate (describeProperties properties) ++ "\x7d)"
  | .ecmaArray properties =>
      "EcmaArray(\x7b" ++ ", ".intercalate (describeProperties properties) ++ "\x7d)"
  | .strictArray items =>
      "Array([" ++ ", ".intercalate (describeItems items) ++ "])"
  | .typedObject className properties =>
      "TypedObject \x7b class_name: " ++ quoted className ++
        ", properties: \x7b" ++ ", ".intercalate (describeProperties properties) ++
        "\x7d \x7d"
  | .date milliseconds => "Date(" ++ milliseconds.write numberForm ++ ")"
  | .xml content => "Xml(" ++ quoted content ++ ")"
  | .byteArray content =>
      "ByteArray([" ++
        ", ".intercalate (content.map fun byte => toString byte.toNat) ++ "])"

def describeItems : List AmfValue → List String
  | [] => []
  | item :: items => describe item :: describeItems items

def describeProperties : List (String × AmfValue) → List String
  | [] => []
  | (name, content) :: rest =>
      (quoted name ++ ": " ++ describe content) :: describeProperties rest

end

end AmfValue

end LiveRelay
