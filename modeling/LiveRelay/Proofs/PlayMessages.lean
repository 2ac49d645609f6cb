import LiveRelay.Proofs.StreamOperations

/-!
# The messages of a play

What a viewer is sent, with the fields and the bytes that go over the wire: first
that the play starts, then the codec configurations, descriptions and frames of the
stream, and last that the stream has ended.
-/

namespace LiveRelay

namespace WireMessage

/-- Control messages go on chunk stream 2, and two bytes name the event. -/
def streamBegin (streamId : UInt32) : WireMessage :=
  ⟨2, 0, 4, 0, [0, 0] ++ Bytes.ofWord32 streamId⟩

def streamEnd (streamId : UInt32) : WireMessage :=
  ⟨2, 0, 4, 0, [0, 1] ++ Bytes.ofWord32 streamId⟩

def status (streamId : UInt32) (code description : String) : WireMessage :=
  let info : AmfValue :=
    .object
      [("level", .text "status"), ("code", .text code),
        ("description", .text description)]
  ⟨3, 0, 20, streamId, Amf0.writeItems [.text "onStatus", .number .zero, .null, info]⟩

def data (streamId : UInt32) (name : String) (values : List AmfValue) : WireMessage :=
  ⟨5, 0, 18, streamId, Amf0.writeItems (.text name :: values)⟩

def description (streamId : UInt32) (metadata : Properties) : WireMessage :=
  data streamId "onMetaData" [.ecmaArray metadata]

def media (streamId : UInt32) (kind : MediaKind) (timestamp : UInt32)
    (payload : Bytes) : WireMessage :=
  match kind with
  | .audio => ⟨4, timestamp, 8, streamId, payload⟩
  | .video => ⟨6, timestamp, 9, streamId, payload⟩

end WireMessage

/-- What a play starts with: that it starts, the codec configurations, the
description, and the last few frames. -/
def SubscribeRequest.opening (request : SubscribeRequest) (cache : MediaCache) :
    List WireMessage :=
  let streamId := request.streamId
  let path := request.path.text
  [.streamBegin streamId,
      .status streamId "NetStream.Play.Reset" s!"Playing and resetting {path}.",
      .status streamId "NetStream.Play.Start" s!"Started playing {path}.",
      .data streamId "|RtmpSampleAccess" [.boolean true, .boolean true]] ++
    cache.videoHeader.toList.map
      (fun header => .media streamId .video 0 header.content) ++
    cache.audioHeader.toList.map
      (fun header => .media streamId .audio 0 header.content) ++
    cache.metadata.toList.map (.description streamId) ++
    cache.group.entries.map fun entry =>
      .media streamId entry.kind entry.timestamp entry.buffer.content

namespace Subscription

variable (subscription : Subscription)

theorem map_toWire_startMessages :
    subscription.startMessages.map OutboundMessage.toWire =
      let streamId := subscription.streamId
      let path := subscription.path.text
      [.streamBegin streamId,
        .status streamId "NetStream.Play.Reset" s!"Playing and resetting {path}.",
        .status streamId "NetStream.Play.Start" s!"Started playing {path}.",
        .data streamId "|RtmpSampleAccess" [.boolean true, .boolean true]] :=
  rfl

theorem toWire_metadataMessage (metadata : Properties) :
    (subscription.metadataMessage metadata).toWire =
      .description subscription.streamId metadata :=
  rfl

end Subscription

theorem OutboundMessage.toWire_media (kind : MediaKind) (streamId timestamp : UInt32)
    (buffer : RentedBuffer) :
    (OutboundMessage.media kind streamId timestamp buffer).toWire =
      .media streamId kind timestamp buffer.content := by
  cases kind <;> rfl

theorem MediaCache.map_toWire_opening (cache : MediaCache) (request : SubscribeRequest) :
    let subscription := request.subscription cache
    (subscription.startMessages ++
        cache.primingMessages subscription).map OutboundMessage.toWire =
      request.opening cache := by
  intro subscription
  have hstart := subscription.map_toWire_startMessages
  unfold MediaCache.primingMessages SubscribeRequest.opening
  simp only [List.map_append, List.map_map, Function.comp_def, OutboundMessage.toWire_media,
    Subscription.toWire_metadataMessage, hstart, List.append_assoc]
  rfl

end LiveRelay
