import Courier.Transport.Request

/-!
# Publishers that own a channel

A publisher opens its channel with its first message and keeps it until a publish fails or it is
closed; then the channel is closed, and the next message gets a fresh one. The confirmed kind puts
a new channel in confirm mode before it publishes, and sends persistent messages that wait to be
confirmed; the other kind sends and forgets.
-/

namespace Courier

/-- A publisher and the channel that it has open, if it has one. -/
structure ChannelPublisher where
  confirmed : Bool
  channel : Option ChannelId := none
  deriving DecidableEq, Repr

namespace ChannelPublisher

open Transport (Session)
open Transport.Session

/-- A new publisher that keeps the guarantee. -/
def of (guarantee : Guarantee) : ChannelPublisher where
  confirmed := guarantee = .atLeastOnce

/-- How it publishes. -/
def options (p : ChannelPublisher) : PublishOptions where
  persistent := p.confirmed
  waitForConfirm := p.confirmed

/-- Open a channel fit for publishing. One that cannot be put in confirm mode is let go. -/
def openFresh (p : ChannelPublisher) : Session (Except TransportError ChannelId) := do
  match ← openChannel with
  | .error e => pure (.error e)
  | .ok channel =>
    if p.confirmed then
      match ← confirmSelect channel with
      | .error e =>
        dropChannel channel
        pure (.error e)
      | .ok () => pure (.ok channel)
    else pure (.ok channel)

/-- The channel it has, or a fresh one. -/
def ready (p : ChannelPublisher) : Session (Except TransportError ChannelId) :=
  match p.channel with
  | some channel => pure (.ok channel)
  | none => p.openFresh

/-- Publish a message. -/
def send (p : ChannelPublisher) (publishing : Publishing) :
    Session (Except TransportError Unit × ChannelPublisher) := do
  match ← p.ready with
  | .error e => pure (.error e, { p with channel := none })
  | .ok channel =>
    match ← publish channel publishing p.options with
    | .ok () => pure (.ok (), { p with channel := some channel })
    | .error e =>
      closeAndDrop channel
      pure (.error e, { p with channel := none })

/-- Close the channel, if one is open. -/
def close (p : ChannelPublisher) : Session ChannelPublisher := do
  match p.channel with
  | none => pure p
  | some channel =>
    closeAndDrop channel
    pure { p with channel := none }

/-- Let go of the publisher without closing its channel. -/
def drop (p : ChannelPublisher) : Session Unit :=
  match p.channel with
  | none => pure ()
  | some channel => dropChannel channel

end ChannelPublisher

end Courier
