import LiveRelay.Table

/-!
# Stream paths

A stream is addressed by its application and its name.  The name that a client
sends may carry a query behind a question mark.  The query gives arguments and
has no part in the path.  Slashes around the application and around the name
have no part in it either.
-/

namespace LiveRelay

/-- The text of a path starts with a slash. -/
structure StreamPath where
  text : String
  deriving DecidableEq, Inhabited, Repr

abbrev StreamArguments := Fields String

namespace StreamPath

/-- What stands before the first `mark`, and behind it if it occurs. -/
def splitFirst (mark : Char) (chars : List Char) : List Char × Option (List Char) :=
  match chars.dropWhile (· ≠ mark) with
  | [] => (chars, none)
  | _ :: rest => (chars.takeWhile (· ≠ mark), some rest)

def trimSlashes (chars : List Char) : List Char :=
  ((chars.dropWhile (· = '/')).reverse.dropWhile (· = '/')).reverse

/-- The parts between the marks, at least one. -/
def splitAll (mark : Char) : List Char → List (List Char)
  | [] => [[]]
  | c :: rest =>
      if c = mark then [] :: splitAll mark rest
      else
        match splitAll mark rest with
        | part :: parts => (c :: part) :: parts
        | [] => [[c]]

/-- A pair without an equals sign has an empty value. -/
def argument (pair : List Char) : String × String :=
  let (key, value) := splitFirst '=' pair
  (String.ofList key, String.ofList (value.getD []))

/-- Pairs are separated by ampersands, empty ones are left out, and of several
with the same key the last one counts. -/
def arguments (query : List Char) : StreamArguments :=
  Table.ofPairs (((splitAll '&' query).filter (· ≠ [])).map argument)

def parseQuery (query : String) : StreamArguments :=
  arguments query.toList

/-- The path of a name under an application, with the arguments of the name's
query, unless the name is empty. -/
def parse? (app name : String) : Option (StreamPath × StreamArguments) :=
  let (name, query) := splitFirst '?' name.toList
  let name := trimSlashes name
  if name.isEmpty then none
  else
    let path := '/' :: trimSlashes app.toList ++ '/' :: name
    some (⟨String.ofList path⟩, arguments (query.getD []))

/-- A path as given, with a slash in front. -/
def ofText (text : String) : StreamPath :=
  match text.toList with
  | '/' :: _ => ⟨text⟩
  | chars => ⟨String.ofList ('/' :: chars)⟩

/-- How many bytes the text has. -/
def size (path : StreamPath) : Nat :=
  path.text.utf8ByteSize

end StreamPath

end LiveRelay
