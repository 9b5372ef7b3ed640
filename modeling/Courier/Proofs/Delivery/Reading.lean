import Courier.Consumer.Lane
import Courier.Proofs.Protocol

/-!
# What a lane does

`Reads` is the protocol of a lane: it opens a stream of its queue, takes one message at a time, has it
handled, and settles this delivery and no other before it takes the next one. `start_obeys` and
`turn_obeys` say that a lane keeps to it, whatever it is answered and whatever its handler does.
-/

namespace Courier.Delivery

/-- How far a lane has come. -/
inductive Reading where
  /-- It has no stream: it is about to open one, or it ends. -/
  | aside
  | waiting (stream : StreamId)
  /-- It has a delivery of its stream to settle. -/
  | holding (stream : StreamId) (delivery : DeliveryId)

/-- Is it a request that neither opens a stream nor gets a message into a queue? -/
def isPlain : Transport.Request → Bool
  | .publish .. => false
  | .nack .. => false
  | .consume .. => false
  | _ => true

/-- The steps of a lane that reads a queue. -/
inductive Reads (queue : String) :
    Reading → (r : Consuming.Request) → Requests.Answer r → Reading → Prop where
  | talk {r : Transport.Request} (h : isPlain r = true) (a : Requests.Answer r) :
      Reads queue .aside (.session r) a .aside
  | consume {channel : ChannelId} {exclusive : Bool} (stream : StreamId) :
      Reads queue .aside (.session (.consume channel queue exclusive)) (.ok stream) (.waiting stream)
  | refused {channel : ChannelId} {exclusive : Bool} (e : TransportError) :
      Reads queue .aside (.session (.consume channel queue exclusive)) (.error e) .aside
  | take {stream : StreamId} {stops : List TokenId} (delivery : DeliveryId) (message : Message) :
      Reads queue (.waiting stream) (.receive stream stops) (.delivered delivery message)
        (.holding stream delivery)
  | leave {stream : StreamId} {stops : List TokenId} {received : Consuming.Received}
      (h : ∀ delivery message, received ≠ .delivered delivery message) :
      Reads queue (.waiting stream) (.receive stream stops) received .aside
  | handle {stream : StreamId} {delivery : DeliveryId} {r : Handler.Request}
      (a : Requests.Answer r) :
      Reads queue (.holding stream delivery) (.handler r) a (.holding stream delivery)
  | ack {stream : StreamId} {delivery : DeliveryId} (a : Except TransportError Unit) :
      Reads queue (.holding stream delivery) (.session (.ack delivery)) a (.waiting stream)
  | nack {stream : StreamId} {delivery : DeliveryId} {requeue : Bool}
      (a : Except TransportError Unit) :
      Reads queue (.holding stream delivery) (.session (.nack delivery requeue)) a (.waiting stream)

/-- How a lane stands after a turn: it reads on, or it has ended. -/
def Turned : Lane ⊕ Except ConsumeError Unit → Reading → Prop
  | .inl lane, reading => reading = .waiting lane.stream
  | .inr _, reading => reading = .aside

variable {queue : String} {stream : StreamId} {delivery : DeliveryId} {α : Type}
  {post : α → Reading → Prop}

theorem obeys_talk {r : Transport.Request}
    {next : Requests.Answer (Consuming.Request.session r) → Consuming.Action α}
    (hr : isPlain r = true) (h : ∀ a, (next a).Obeys (Reads queue) post .aside) :
    (Program.ask (Consuming.Request.session r) next).Obeys (Reads queue) post .aside := by
  obtain ⟨a⟩ := Transport.nonempty_answer r
  refine ⟨⟨a, _, .talk hr a⟩, fun a reading hm => ?_⟩
  cases hm with
  | talk => exact h a
  | consume => cases hr
  | refused => cases hr

theorem obeys_leave {channel : ChannelId} {result : α} (h : post result .aside) :
    (Lane.leave channel result).Obeys (Reads queue) post .aside :=
  obeys_talk rfl fun _ => obeys_talk rfl fun _ => h

theorem obeys_finish (lane : Lane) (result : Except ConsumeError Unit) :
    (lane.finish result).Obeys (Reads queue) Turned .aside :=
  obeys_talk rfl fun _ => obeys_leave rfl

/-- Whatever a handler asks for, the delivery is still to be settled after it. -/
theorem obeys_handling (p : Handling α) :
    (Consuming.handling p).Obeys (Reads queue) (fun _ reading => reading = .holding stream delivery)
      (.holding stream delivery) := by
  induction p with
  | done a => rfl
  | ask r next ih =>
    have hsome : Nonempty (Requests.Answer r) := by
      cases r <;> first | exact ⟨()⟩ | exact ⟨(0 : Nat)⟩ | exact ⟨.error .nacked⟩
    obtain ⟨a⟩ := hsome
    refine ⟨⟨a, _, .handle a⟩, fun a reading hm => ?_⟩
    cases hm with
    | handle => exact ih a

theorem obeys_settle (s : Consumer.Settlement) :
    (Consuming.session (Consumer.settle delivery s)).Obeys (Reads queue)
      (fun _ reading => reading = .waiting stream) (.holding stream delivery) := by
  cases s with
  | ack =>
    refine ⟨⟨_, _, .ack (.ok ())⟩, fun a reading hm => ?_⟩
    cases hm with
    | ack => rfl
  | nack requeue =>
    refine ⟨⟨_, _, .nack (.ok ())⟩, fun a reading hm => ?_⟩
    cases hm with
    | nack => rfl

/-- A delivery is handled and settled. -/
theorem obeys_process (consumer : Consumer) (message : Message) :
    (consumer.process delivery message).Obeys (Reads queue)
      (fun _ reading => reading = .waiting stream) (.holding stream delivery) := by
  refine ((obeys_handling (consumer.handler message)).mono fun outcome reading h => ?_).bind
  subst h
  exact obeys_settle _

/-- A lane reads on. -/
theorem turn_obeys (lane : Lane) :
    lane.turn.Obeys (Reads queue) Turned (.waiting lane.stream) := by
  refine ⟨⟨.stopped, _, .leave (by simp)⟩, fun received reading hm => ?_⟩
  cases hm with
  | take delivery message =>
    show ((lane.consumer.process delivery message).bind fun _ =>
        Program.done (Sum.inl lane)).Obeys (Reads queue) Turned _
    exact ((obeys_process lane.consumer message).mono fun _ reading h => h).bind
  | leave h =>
    cases received with
    | delivered delivery message => exact absurd rfl (h delivery message)
    | _ => exact obeys_finish lane _

/-- A lane opens its stream. -/
theorem start_obeys (consumer : Consumer) (stops : List TokenId) :
    (Lane.start consumer stops).Obeys (Reads consumer.config.queue) Turned .aside := by
  refine obeys_talk rfl fun opened => ?_
  cases opened with
  | error e => rfl
  | ok channel =>
    refine obeys_talk rfl fun limited => ?_
    cases limited with
    | error e => exact obeys_leave rfl
    | ok =>
      refine ⟨⟨_, _, .consume 0⟩, fun a reading hm => ?_⟩
      cases hm with
      | consume stream => rfl
      | refused e => exact obeys_leave rfl
      | talk h => cases h

end Courier.Delivery
