import LiveRelay.Command

/-!
# Session context

What policies and observers of events are told about a session.
-/

namespace LiveRelay

structure SessionContext where
  /-- Sessions are numbered from one. -/
  sessionId : Nat
  app : String := ""
  /-- What the client connected with, once it has. -/
  parameters : Option ConnectParameters := none
  deriving Inhabited

namespace SessionContext

def withConnect (context : SessionContext) (parameters : ConnectParameters) :
    SessionContext :=
  { context with app := parameters.app, parameters := some parameters }

def isConnected (context : SessionContext) : Bool :=
  context.parameters.isSome

def tcUrl (context : SessionContext) : Option String :=
  context.parameters.bind ConnectParameters.tcUrl

def flashVersion (context : SessionContext) : Option String :=
  context.parameters.bind ConnectParameters.flashVersion

end SessionContext

end LiveRelay
