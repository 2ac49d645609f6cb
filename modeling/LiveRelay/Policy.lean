import LiveRelay.SessionContext
import LiveRelay.StreamPath

/-!
# Policies

A policy decides who may connect, publish and play.  It accepts, rejects with
a reason, or accepts under another path.  Policies are chained: a rejection by
one means that no later one is asked, and of several other paths the last one
counts.
-/

namespace LiveRelay

inductive Decision where
  | accept
  /-- Accepted under another path than the one asked for. -/
  | acceptAs (path : StreamPath)
  | reject (reason : String)
  deriving DecidableEq, Inhabited, Repr

namespace Decision

def isReject : Decision → Bool
  | .reject _ => true
  | _ => false

def isAccept (decision : Decision) : Bool :=
  !decision.isReject

/-- The joint decision of an acceptance and what comes after it. -/
def followedBy : Decision → Decision → Decision
  | .acceptAs path, .accept => .acceptAs path
  | _, second => second

/-- The path under which a request goes on, or the reason why it does not. -/
def path (decision : Decision) (requested : StreamPath) :
    Except String StreamPath :=
  match decision with
  | .accept => .ok requested
  | .acceptAs path => .ok path
  | .reject reason => .error reason

end Decision

/-- What a session may ask leave for. -/
inductive Request where
  | connect (parameters : ConnectParameters)
  | publish (path : StreamPath) (arguments : StreamArguments) (publishType : String)
  | play (path : StreamPath) (arguments : StreamArguments)

/-- What policies are asked in the course of a session. -/
inductive Question where
  /-- Whether the connection is let in at all. -/
  | connection
  | request (request : Request)
  /-- The session is over; no answer is expected. -/
  | disconnect

/-- The answers of a single policy; by default all is accepted. -/
structure Policy where
  admits : SessionContext → Bool := fun _ => true
  decide : SessionContext → Request → Decision := fun _ _ => .accept

inductive PolicyChain where
  | single (name : String) (policy : Policy)
  | chained (first second : PolicyChain)

namespace PolicyChain

/-- The decision, and the names of those who were asked. -/
def decide (context : SessionContext) (request : Request) :
    PolicyChain → Decision × List String
  | .single name policy => (policy.decide context request, [name])
  | .chained first second =>
      let (decision, asked) := first.decide context request
      if decision.isReject then (decision, asked)
      else
        let (next, others) := second.decide context request
        (decision.followedBy next, asked ++ others)

/-- Whether a new connection is let in, and the names of those who were
asked. -/
def admits (context : SessionContext) : PolicyChain → Bool × List String
  | .single name policy => (policy.admits context, [name])
  | .chained first second =>
      let (admitted, asked) := first.admits context
      if admitted then
        let (admitted, others) := second.admits context
        (admitted, asked ++ others)
      else (false, asked)

/-- All names, in order. -/
def names : PolicyChain → List String
  | .single name _ => [name]
  | .chained first second => first.names ++ second.names

end PolicyChain

end LiveRelay
