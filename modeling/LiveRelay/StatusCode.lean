/-!
# Status codes

A status message tells a client, by its code, what became of its connection or
of one of its streams.
-/

namespace LiveRelay.StatusCode

def connectSuccess : String := "NetConnection.Connect.Success"
def connectRejected : String := "NetConnection.Connect.Rejected"

def publishStart : String := "NetStream.Publish.Start"
def publishBadName : String := "NetStream.Publish.BadName"
def publishUnauthorized : String := "NetStream.Publish.Unauthorized"
def unpublishSuccess : String := "NetStream.Unpublish.Success"

def playStart : String := "NetStream.Play.Start"
def playReset : String := "NetStream.Play.Reset"
def playStop : String := "NetStream.Play.Stop"
def playStreamNotFound : String := "NetStream.Play.StreamNotFound"
def playUnauthorized : String := "NetStream.Play.Unauthorized"
def playUnpublishNotify : String := "NetStream.Play.UnpublishNotify"

def pauseNotify : String := "NetStream.Pause.Notify"
def unpauseNotify : String := "NetStream.Unpause.Notify"

def failed : String := "NetStream.Failed"

end LiveRelay.StatusCode
