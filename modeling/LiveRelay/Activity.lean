/-!
# Activity

A session that neither reads nor writes for too long is given up.  The clock of
a session counts whole milliseconds from its start, and reading and writing
note the time on it.
-/

namespace LiveRelay

structure Activity where
  /-- When something happened last. -/
  last : Nat := 0
  deriving DecidableEq, Inhabited, Repr

namespace Activity

def millisecondsIn (microseconds : Nat) : Nat :=
  microseconds / 1000

/-- Reader and writer note the time independently of each other; the later
note counts. -/
def touch (activity : Activity) (now : Nat) : Activity :=
  ⟨max activity.last now⟩

def idleFor (activity : Activity) (now : Nat) : Nat :=
  now - activity.last

/-- Nothing has happened for as long as is allowed. -/
def isExpired (activity : Activity) (limit now : Nat) : Bool :=
  limit ≤ activity.idleFor now

end Activity

end LiveRelay
