/-!
# Socket addresses

A socket address is the address of a host and a port.  The host is given by
four octets, or by eight groups of sixteen bits in brackets, with a scope if it
has one.  One run of zero groups may be left out of the text, and the last two
groups may be written as four octets, so that several texts can stand for one
address.  An address is always written in the same way: without zeros in front
of a number, with small hexadecimal digits, and without the longest run of zero
groups.
-/

namespace LiveRelay

structure Octets where
  first : UInt8
  second : UInt8
  third : UInt8
  fourth : UInt8
  deriving DecidableEq, Inhabited, Repr

inductive HostAddress where
  | four (octets : Octets)
  /-- No scope is scope zero. -/
  | six (groups : Vector UInt16 8) (scope : UInt32)
  deriving DecidableEq, Inhabited, Repr

structure SocketAddress where
  host : HostAddress
  port : UInt16
  deriving DecidableEq, Inhabited, Repr

/-! ## Octets and groups -/

namespace Octets

def groups (octets : Octets) : List UInt16 :=
  [octets.first.toUInt16 * 256 + octets.second.toUInt16,
    octets.third.toUInt16 * 256 + octets.fourth.toUInt16]

def ofGroups (high low : UInt16) : Octets where
  first := (high / 256).toUInt8
  second := high.toUInt8
  third := (low / 256).toUInt8
  fourth := low.toUInt8

end Octets

/-- The groups of `head` in front, those of `tail` at the end, and zeros between. -/
def HostAddress.spread (head tail : List UInt16) : Vector UInt16 8 :=
  let zeros := List.replicate (8 - (head.length + tail.length)) 0
  Vector.ofFn fun place => (head ++ zeros ++ tail).getD place 0

/-! ## Reading -/

/-- Which numbers are read. -/
structure NumberForm where
  base : Nat
  /-- Every number that is read is smaller. -/
  bound : Nat
  mostDigits : Option Nat := none
  mayStartWithZeros : Bool := true

namespace NumberForm

def octet : NumberForm :=
  { base := 10, bound := 256, mostDigits := some 3, mayStartWithZeros := false }

def group : NumberForm :=
  { base := 16, bound := 65536, mostDigits := some 4 }

def port : NumberForm :=
  { base := 10, bound := 65536 }

def scope : NumberForm :=
  { base := 10, bound := 4294967296 }

def digit? (form : NumberForm) (c : Char) : Option Nat :=
  let value :=
    if '0' ≤ c ∧ c ≤ '9' then c.toNat - '0'.toNat
    else if 'a' ≤ c ∧ c ≤ 'z' then c.toNat - 'a'.toNat + 10
    else if 'A' ≤ c ∧ c ≤ 'Z' then c.toNat - 'A'.toNat + 10
    else form.base
  if value < form.base then some value else none

/-- The digits at the front, and what stands behind them. -/
def digits (form : NumberForm) : List Char → List Nat × List Char
  | [] => ([], [])
  | c :: text =>
      match form.digit? c with
      | some digit =>
          let (digits, rest) := form.digits text
          (digit :: digits, rest)
      | none => ([], c :: text)

def value (form : NumberForm) (digits : List Nat) : Nat :=
  digits.foldl (fun value digit => value * form.base + digit) 0

def accepts (form : NumberForm) (digits : List Nat) : Bool :=
  !digits.isEmpty && form.mostDigits.all (digits.length ≤ ·) &&
    (form.mayStartWithZeros || digits.length == 1 || digits.head? != some 0) &&
    form.value digits < form.bound

/-- All digits at the front belong to the number. -/
def read? (form : NumberForm) (text : List Char) : Option (Nat × List Char) :=
  let (digits, rest) := form.digits text
  if form.accepts digits then some (form.value digits, rest) else none

end NumberForm

/-- The text behind a mark that it starts with. -/
def behind? (mark : Char) : List Char → Option (List Char)
  | [] => none
  | c :: text => if c = mark then some text else none

def Octets.read? (text : List Char) : Option (Octets × List Char) := do
  let (first, text) ← NumberForm.octet.read? text
  let (second, text) ← NumberForm.octet.read? (← behind? '.' text)
  let (third, text) ← NumberForm.octet.read? (← behind? '.' text)
  let (fourth, text) ← NumberForm.octet.read? (← behind? '.' text)
  some (⟨.ofNat first, .ofNat second, .ofNat third, .ofNat fourth⟩, text)

namespace HostAddress

/-- A row of groups that has been read, and the text behind it. -/
structure Groups where
  groups : List UInt16
  /-- Whether the last two groups are written as octets. -/
  endsInOctets : Bool
  rest : List Char

/-- As many groups as there are, up to a limit, with colons between them.  Octets
stand for two groups and end the row. -/
def readGroups : (limit : Nat) → (isFirst : Bool) → List Char → Groups
  | 0, _, text => ⟨[], false, text⟩
  | limit + 1, isFirst, text =>
      let start := if isFirst then some text else behind? ':' text
      match if limit = 0 then none else start.bind Octets.read? with
      | some (octets, rest) => ⟨octets.groups, true, rest⟩
      | none =>
          match start.bind NumberForm.group.read? with
          | some (group, rest) =>
              let following := readGroups limit false rest
              { following with groups := UInt16.ofNat group :: following.groups }
          | none => ⟨[], false, text⟩

/-- Eight groups, or fewer with two colons where at least one zero group is left
out.  Octets cannot stand in front of the two colons. -/
def readSix? (text : List Char) : Option (Vector UInt16 8 × List Char) :=
  let head := readGroups 8 true text
  if head.groups.length = 8 then some (spread head.groups [], head.rest)
  else if head.endsInOctets then none
  else do
    let text ← behind? ':' (← behind? ':' head.rest)
    let tail := readGroups (7 - head.groups.length) true text
    some (spread head.groups tail.groups, tail.rest)

/-- The scope behind a percent sign.  Where none can be read it is zero. -/
def readScope (text : List Char) : Nat × List Char :=
  ((behind? '%' text).bind NumberForm.scope.read?).getD (0, text)

def readFour? (text : List Char) : Option (HostAddress × List Char) := do
  let (octets, text) ← Octets.read? text
  some (.four octets, text)

def readBracketed? (text : List Char) : Option (HostAddress × List Char) := do
  let (groups, text) ← readSix? (← behind? '[' text)
  let (scope, text) := readScope text
  some (.six groups (.ofNat scope), ← behind? ']' text)

def read? (text : List Char) : Option (HostAddress × List Char) :=
  readFour? text <|> readBracketed? text

end HostAddress

/-- The address that the whole text stands for. -/
def SocketAddress.ofText? (text : String) : Option SocketAddress := do
  let (host, text) ← HostAddress.read? text.toList
  let (port, text) ← NumberForm.port.read? (← behind? ':' text)
  if text.isEmpty then some ⟨host, .ofNat port⟩ else none

/-! ## Writing -/

def Octets.write (octets : Octets) : String :=
  s!"{octets.first}.{octets.second}.{octets.third}.{octets.fourth}"

namespace HostAddress

def writeGroups (groups : List UInt16) : String :=
  ":".intercalate (groups.map fun group => String.ofList (Nat.toDigits 16 group.toNat))

def zerosFrom (groups : List UInt16) (start : Nat) : Nat :=
  ((groups.drop start).takeWhile (· == 0)).length

/-- Where the longest run of zeros starts, and its length.  Of several it is the
first. -/
def longestZeros (groups : List UInt16) : Nat × Nat :=
  (List.range groups.length).foldl (fun longest start =>
    if longest.2 < zerosFrom groups start then (start, zerosFrom groups start)
    else longest) (0, 0)

/-- A single zero group is written out.  Octets behind five zero groups and a
group of ones are written as octets. -/
def writeSix (groups : List UInt16) : String :=
  match groups with
  | [0, 0, 0, 0, 0, 0xFFFF, high, low] => "::ffff:" ++ (Octets.ofGroups high low).write
  | _ =>
      let (start, length) := longestZeros groups
      if length ≤ 1 then writeGroups groups
      else
        writeGroups (groups.take start) ++ "::" ++ writeGroups (groups.drop (start + length))

def write : HostAddress → String
  | .four octets => octets.write
  | .six groups scope =>
      let scope := if scope = 0 then "" else s!"%{scope}"
      "[" ++ writeSix groups.toList ++ scope ++ "]"

end HostAddress

def SocketAddress.write (address : SocketAddress) : String :=
  s!"{address.host.write}:{address.port}"

end LiveRelay
