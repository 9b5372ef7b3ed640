import Courier.Amqp.Transport
import Courier.Proofs.Publisher.Serving

/-!
# What publishers ask of an AMQP client

A publisher of the confirmed kind over an AMQP client: each of its requests to the connection is
carried out by calls of the client. `called` lists all that one call on the publisher can ask of the
client and be told by it, and what it answers (`Called`).
-/

namespace Courier.Amqp

open ChannelPublisher (Readied optionsOf performed)
open Program (Carried Told carried_append told_interpret)

/-! ## What requests to the connection ask of the client -/

/-- The call by which a message is sent that is to be confirmed. -/
def sending (now : Int) (channel : ChannelId) (publishing : Publishing) : Call :=
  .basicPublish channel publishing.destination.exchange publishing.destination.routingKey
    publishing.body (propertiesOf now publishing.destination true)

/-- How a message is published that is to be confirmed. -/
inductive Published (now : Int) (channel : ChannelId) (publishing : Publishing) :
    List (Program.Event Call) → Except TransportError Unit → Prop where
  | refused (cause : String) :
      Published now channel publishing [⟨sending now channel publishing, .error cause⟩]
        (.error (.publish cause))
  | lost (cause : String) :
      Published now channel publishing
        [⟨sending now channel publishing, .ok ()⟩, ⟨.awaitConfirm channel, .error cause⟩]
        (.error (.publish cause))
  | nacked :
      Published now channel publishing
        [⟨sending now channel publishing, .ok ()⟩, ⟨.awaitConfirm channel, .ok .nack⟩]
        (.error .nacked)
  | acked :
      Published now channel publishing
        [⟨sending now channel publishing, .ok ()⟩, ⟨.awaitConfirm channel, .ok .ack⟩] (.ok ())
  | unconfirmed :
      Published now channel publishing
        [⟨sending now channel publishing, .ok ()⟩, ⟨.awaitConfirm channel, .ok .notRequested⟩]
        (.ok ())

theorem published {now : Int} {channel : ChannelId} {publishing : Publishing}
    {events : List (Program.Event Call)} {result : Except TransportError Unit}
    (h : (publish now channel publishing (optionsOf true)).Told events result) :
    Published now channel publishing events result := by
  obtain ⟨cause | _, rest, rfl, h⟩ := h
  · obtain ⟨rfl, rfl⟩ := h
    exact .refused cause
  · obtain ⟨cause | _ | _ | _, rest, rfl, h⟩ := h <;> obtain ⟨rfl, rfl⟩ := h
    · exact .lost cause
    · exact .acked
    · exact .nacked
    · exact .unconfirmed

/-- How a publisher gets at a channel of the client. -/
inductive Reached : Option ChannelId → List (Program.Event Call) →
    Except TransportError ChannelId → Prop where
  | kept (channel : ChannelId) : Reached (some channel) [] (.ok channel)
  | opened (channel : ChannelId) :
      Reached none [⟨.createChannel, .ok channel⟩, ⟨.confirmSelect channel, .ok ()⟩] (.ok channel)
  | refused (cause : String) :
      Reached none [⟨.createChannel, .error cause⟩] (.error (.channel cause))
  | unfit (channel : ChannelId) (cause : String) :
      Reached none [⟨.createChannel, .ok channel⟩, ⟨.confirmSelect channel, .error cause⟩]
        (.error (.channel cause))

theorem reached {now : Int} {held : Option ChannelId} {asked : List (Program.Event Transport.Request)}
    {events : List (Program.Event Call)} {result : Except TransportError ChannelId}
    (h : Readied true held asked result) (hc : Carried (transport now) asked events) :
    Reached held events result := by
  cases h with
  | kept channel =>
    obtain rfl := hc
    exact .kept channel
  | opened channel =>
    obtain ⟨_, _, rfl, ⟨_ | _, _, rfl, rfl, hopen⟩, _, _, rfl, ⟨_ | _, _, rfl, rfl, hselect⟩, rfl⟩ :=
      hc
    all_goals cases hopen
    all_goals cases hselect
    exact .opened channel
  | refused e =>
    obtain ⟨_, _, rfl, ⟨_ | _, _, rfl, rfl, hopen⟩, rfl⟩ := hc
    all_goals cases hopen
    exact .refused _
  | unfit channel e _ =>
    obtain ⟨_, _, rfl, ⟨_ | _, _, rfl, rfl, hopen⟩, _, _, rfl, ⟨_ | _, _, rfl, rfl, hselect⟩,
      _, _, rfl, ⟨rfl, -⟩, rfl⟩ := hc
    all_goals cases hopen
    all_goals cases hselect
    exact .unfit channel _

/-- What a call asks of the client. -/
inductive Called : Option ChannelId → Int × ChannelPublisher.Call → List (Program.Event Call) →
    Option (Except TransportError Unit) → Option ChannelId → Prop where
  | astray {held : Option ChannelId} {now : Int} {publishing : Publishing}
      {events : List (Program.Event Call)} {e : TransportError} (h : Reached held events (.error e)) :
      Called held (now, .publish publishing) events (some (.error e)) none
  | sent {held : Option ChannelId} {now : Int} {publishing : Publishing}
      {events more : List (Program.Event Call)} {channel : ChannelId}
      (h : Reached held events (.ok channel)) (hp : Published now channel publishing more (.ok ())) :
      Called held (now, .publish publishing) (events ++ more) (some (.ok ())) (some channel)
  | failed {held : Option ChannelId} {now : Int} {publishing : Publishing}
      {events more : List (Program.Event Call)} {channel : ChannelId} {e : TransportError}
      {closed : Except String Unit} (h : Reached held events (.ok channel))
      (hp : Published now channel publishing more (.error e)) :
      Called held (now, .publish publishing)
        (events ++ (more ++ [⟨.close channel 200 "OK", closed⟩])) (some (.error e)) none
  | idle {now : Int} : Called none (now, .close) [] none none
  | closed {now : Int} {channel : ChannelId} {closed : Except String Unit} :
      Called (some channel) (now, .close) [⟨.close channel 200 "OK", closed⟩] none none

/-- A call that is carried out through the client at its own time. -/
def perform (p : ChannelPublisher) (call : Int × ChannelPublisher.Call) :
    Action (Option (Except TransportError Unit) × ChannelPublisher) :=
  session call.1 (p.perform call.2)

theorem called {p p' : ChannelPublisher} {call : Int × ChannelPublisher.Call}
    {events : List (Program.Event Call)} {result : Option (Except TransportError Unit)}
    (h : (perform p call).Told events (result, p')) (hp : p.confirmed = true) :
    Called p.channel call events result p'.channel ∧ p'.confirmed = true := by
  obtain ⟨now, call⟩ := call
  obtain ⟨asked, hasked, hcarried⟩ := told_interpret h
  obtain ⟨hperf, hconfirmed⟩ := performed hasked
  refine ⟨?_, hconfirmed.trans hp⟩
  rw [hp] at hperf
  generalize p.channel = before at hperf ⊢
  generalize p'.channel = after at hperf ⊢
  clear h hasked
  cases hperf with
  | astray h => exact .astray (reached h hcarried)
  | sent h =>
    obtain ⟨events, _, rfl, hfirst, more, _, rfl, hpublish, rfl⟩ := carried_append hcarried
    rw [List.append_nil]
    exact .sent (reached h hfirst) (published hpublish)
  | failed h =>
    obtain ⟨events, _, rfl, hfirst, more, _, rfl, hpublish, _, _, rfl,
      ⟨closed, _, rfl, rfl, -⟩, _, _, rfl, ⟨rfl, -⟩, rfl⟩ := carried_append hcarried
    exact .failed (reached h hfirst) (published hpublish)
  | idle =>
    obtain rfl := hcarried
    exact .idle
  | closed =>
    obtain ⟨_, _, rfl, ⟨closed, _, rfl, rfl, -⟩, _, _, rfl, ⟨rfl, -⟩, rfl⟩ := hcarried
    exact .closed

end Courier.Amqp
