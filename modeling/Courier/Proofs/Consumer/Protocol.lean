import Courier.Consumer.Group
import Courier.Proofs.Protocol

/-!
# What lanes and runs do

`Moves` is the protocol of a lane from its first request to its last one. Its `Place` says what the
lane has: it opens a channel, reads one stream on it, holds one delivery at a time and settles it,
and at the end lets go of the stream and closes the channel. `obeys_start` and `obeys_turn` say that
lanes keep to it.

`Runs` is the protocol of a run of a group: one channel on which all is declared, one declaration
after another until one fails; then a token for its lanes, the lanes, and the waiting for their
ends. `obeys_run` and `obeys_running` say that runs keep to it.
-/

namespace Courier.Serving

open Consuming (Action Request)

variable {α : Type}

/-! ## Lanes -/

/-- How far a lane has come, and what it has. -/
inductive Place where
  /-- It has no channel yet. -/
  | fresh
  /-- It has a channel and no stream. -/
  | opened (channel : ChannelId)
  | reading (channel : ChannelId) (stream : StreamId)
  /-- It has a delivery of its stream to settle. -/
  | holding (channel : ChannelId) (stream : StreamId) (delivery : DeliveryId)
  /-- It is to let go of its stream. -/
  | leaving (channel : ChannelId) (stream : StreamId)
  /-- It is to close its channel. -/
  | closing (channel : ChannelId)
  /-- It is to let go of its channel. -/
  | closed (channel : ChannelId)
  | ended

/-- The steps of a lane with these settings that is stopped by these tokens. -/
inductive Moves (config : ConsumerConfig) (stops : List TokenId) :
    Place → (r : Request) → Requests.Answer r → Place → Prop where
  | opened (c : ChannelId) : Moves config stops .fresh (.session .openChannel) (.ok c) (.opened c)
  | unopened (e : TransportError) :
      Moves config stops .fresh (.session .openChannel) (.error e) .ended
  | limited (c : ChannelId) :
      Moves config stops (.opened c) (.session (.qos c config.prefetch)) (.ok ()) (.opened c)
  | unlimited (c : ChannelId) (e : TransportError) :
      Moves config stops (.opened c) (.session (.qos c config.prefetch)) (.error e) (.closing c)
  | consumed (c : ChannelId) (stream : StreamId) :
      Moves config stops (.opened c) (.session (.consume c config.queue config.exclusive)) (.ok stream)
        (.reading c stream)
  | unconsumed (c : ChannelId) (e : TransportError) :
      Moves config stops (.opened c) (.session (.consume c config.queue config.exclusive)) (.error e)
        (.closing c)
  | taken (c : ChannelId) (stream : StreamId) (delivery : DeliveryId) (message : Message) :
      Moves config stops (.reading c stream) (.receive stream stops) (.delivered delivery message)
        (.holding c stream delivery)
  | stopped (c : ChannelId) (stream : StreamId) {received : Consuming.Received}
      (h : ∀ delivery message, received ≠ .delivered delivery message) :
      Moves config stops (.reading c stream) (.receive stream stops) received (.leaving c stream)
  | handled (c : ChannelId) (stream : StreamId) (delivery : DeliveryId) {r : Handler.Request}
      (a : Requests.Answer r) :
      Moves config stops (.holding c stream delivery) (.handler r) a (.holding c stream delivery)
  | acked (c : ChannelId) (stream : StreamId) (delivery : DeliveryId)
      (a : Except TransportError Unit) :
      Moves config stops (.holding c stream delivery) (.session (.ack delivery)) a (.reading c stream)
  | nacked (c : ChannelId) (stream : StreamId) (delivery : DeliveryId) (requeue : Bool)
      (a : Except TransportError Unit) :
      Moves config stops (.holding c stream delivery) (.session (.nack delivery requeue)) a
        (.reading c stream)
  | left (c : ChannelId) (stream : StreamId) :
      Moves config stops (.leaving c stream) (.session (.dropStream stream)) () (.closing c)
  | closed (c : ChannelId) (a : Except TransportError Unit) :
      Moves config stops (.closing c) (.session (.close c)) a (.closed c)
  | dropped (c : ChannelId) :
      Moves config stops (.closed c) (.session (.dropChannel c)) () .ended

/-- Where a lane is after a turn: it reads on, or it has ended. -/
def Turned (stops : List TokenId) : Lane ⊕ Except ConsumeError Unit → Place → Prop
  | .inl lane, place => lane.stops = stops ∧ place = .reading lane.channel lane.stream
  | .inr _, place => place = .ended

section Lanes

variable {config : ConsumerConfig} {stops : List TokenId} {c : ChannelId} {stream : StreamId}
  {delivery : DeliveryId}

theorem obeys_leave {result : α} {post : α → Place → Prop} (h : post result .ended) :
    (Lane.leave c result).Obeys (Moves config stops) post (.closing c) := by
  refine ⟨⟨.ok (), _, .closed c _⟩, fun a place hm => ?_⟩
  cases hm with
  | closed =>
    refine ⟨⟨(), _, .dropped c⟩, fun a place hm => ?_⟩
    cases hm with
    | dropped => exact h

theorem obeys_finish (lane : Lane) (result : Except ConsumeError Unit) :
    (lane.finish result).Obeys (Moves config stops) (Turned stops)
      (.leaving lane.channel lane.stream) := by
  refine ⟨⟨(), _, .left _ _⟩, fun a place hm => ?_⟩
  cases hm with
  | left => exact obeys_leave rfl

/-- Whatever a handler asks for, the delivery is still to be settled after it. -/
theorem obeys_handling (p : Handling α) :
    (Consuming.handling p).Obeys (Moves config stops) (fun _ place => place = .holding c stream delivery)
      (.holding c stream delivery) := by
  induction p with
  | done a => rfl
  | ask r next ih =>
    have hsome : Nonempty (Requests.Answer r) := by
      cases r <;> first | exact ⟨()⟩ | exact ⟨(0 : Nat)⟩ | exact ⟨.error .nacked⟩
    obtain ⟨a⟩ := hsome
    refine ⟨⟨a, _, .handled _ _ _ a⟩, fun a place hm => ?_⟩
    cases hm with
    | handled => exact ih a

theorem obeys_settle (s : Consumer.Settlement) :
    (Consuming.session (Consumer.settle delivery s)).Obeys (Moves config stops)
      (fun _ place => place = .reading c stream) (.holding c stream delivery) := by
  cases s with
  | ack =>
    refine ⟨⟨.ok (), _, .acked _ _ _ _⟩, fun a place hm => ?_⟩
    cases hm with
    | acked => rfl
  | nack requeue =>
    refine ⟨⟨.ok (), _, .nacked _ _ _ _ _⟩, fun a place hm => ?_⟩
    cases hm with
    | nacked => rfl

/-- A delivery is handled and settled. -/
theorem obeys_process (consumer : Consumer) (message : Message) :
    (consumer.process delivery message).Obeys (Moves config stops)
      (fun _ place => place = .reading c stream) (.holding c stream delivery) := by
  refine ((obeys_handling (consumer.handler message)).mono fun outcome place h => ?_).bind
  subst h
  exact obeys_settle _

/-- A lane reads on. -/
theorem obeys_turn {lane : Lane} (hstops : lane.stops = stops) :
    lane.turn.Obeys (Moves config stops) (Turned stops) (.reading lane.channel lane.stream) := by
  subst hstops
  refine ⟨⟨.stopped, _, .stopped _ _ nofun⟩, fun received place hm => ?_⟩
  cases hm with
  | taken _ _ delivery message =>
    show ((lane.consumer.process delivery message).bind fun _ => Program.done (Sum.inl lane)).Obeys
      (Moves config lane.stops) (Turned lane.stops) _
    exact ((obeys_process lane.consumer message).mono fun _ place h => ⟨rfl, h⟩).bind
  | stopped _ _ h =>
    cases received with
    | delivered delivery message => exact absurd rfl (h delivery message)
    | _ => exact obeys_finish lane _

/-- A lane starts. -/
theorem obeys_start (consumer : Consumer) (stops : List TokenId) :
    (Lane.start consumer stops).Obeys (Moves consumer.config stops) (Turned stops) .fresh := by
  refine ⟨⟨_, _, .opened 0⟩, fun a place hm => ?_⟩
  cases hm with
  | unopened e => rfl
  | opened c =>
    refine ⟨⟨_, _, .limited c⟩, fun a place hm => ?_⟩
    cases hm with
    | unlimited _ e => exact obeys_leave rfl
    | limited =>
      refine ⟨⟨_, _, .consumed c 0⟩, fun a place hm => ?_⟩
      cases hm with
      | unconsumed _ e => exact obeys_leave rfl
      | consumed _ stream => exact ⟨rfl, rfl⟩

end Lanes

/-! ## Runs -/

/-- What a consumer declares, one after another. -/
def steps (config : ConsumerConfig) (channel : ChannelId) :
    List (Transport.Session (Except TransportError Unit)) :=
  Consumer.deadLetterSteps config channel ++
    [Transport.Session.declareQueue channel (Consumer.queueDeclaration config)] ++
    Consumer.bindingSteps config channel

/-- The declarations of consumers in their order, each by the queue of the consumer. -/
def declarations (consumers : List Consumer) : List String :=
  consumers.flatMap fun consumer =>
    List.replicate (steps consumer.config 0).length consumer.config.queue

/-- The lanes of a group, each by its consumer. -/
def lanesOf (g : Group) : List Consumer :=
  g.consumers.flatMap fun consumer => List.replicate consumer.config.lanes consumer

/-- How far a run has come. -/
inductive Stage where
  | fresh
  /-- There is this to be declared yet; if nothing, the channel is to be closed and the result
  known. -/
  | declaring (channel : ChannelId) (todo : List String) (result : Except ConsumeError Unit)
  /-- The channel is to be let go of. -/
  | closed (channel : ChannelId) (result : Except ConsumeError Unit)
  | declared
  /-- Its lanes have this token, and these are to be started yet. -/
  | running (lanes : TokenId) (todo : List Consumer)
  /-- All lanes have ended; the token is to be let go of. -/
  | leaving (lanes : TokenId)
  | ended
  | refused (error : ConsumeError)

namespace Stage

/-- A declaration was answered. -/
def told (channel : ChannelId) (queue : String) (todo : List String) :
    Except TransportError Unit → Stage
  | .ok () => .declaring channel todo (.ok ())
  | .error e => .declaring channel [] (.error (.declare queue e))

/-- The declaring has come to an end. -/
def concluded : Except ConsumeError Unit → Stage
  | .ok () => .declared
  | .error e => .refused e

end Stage

open Stage (told concluded)

/-- The steps of a run of a group. -/
inductive Runs (number : Nat) (g : Group) (cancel delivery : TokenId) :
    Stage → (r : Request) → Requests.Answer r → Stage → Prop where
  | opened (c : ChannelId) : Runs number g cancel delivery .fresh (.session .openChannel) (.ok c)
      (.declaring c (declarations g.consumers) (.ok ()))
  | unopened (e : TransportError) :
      Runs number g cancel delivery .fresh (.session .openChannel) (.error e) (.refused (.channel e))
  | exchange {c : ChannelId} {queue : String} {todo : List String} {name : String}
      {kind : ExchangeKind} {durable : Bool} (a : Except TransportError Unit) :
      Runs number g cancel delivery (.declaring c (queue :: todo) (.ok ()))
        (.session (.declareExchange c name kind durable)) a (told c queue todo a)
  | queue {c : ChannelId} {queue : String} {todo : List String} {declaration : QueueDeclaration}
      (a : Except TransportError Unit) :
      Runs number g cancel delivery (.declaring c (queue :: todo) (.ok ()))
        (.session (.declareQueue c declaration)) a (told c queue todo a)
  | binding {c : ChannelId} {queue : String} {todo : List String} {name exchange key : String}
      {arguments : Headers} (a : Except TransportError Unit) :
      Runs number g cancel delivery (.declaring c (queue :: todo) (.ok ()))
        (.session (.bindQueue c name exchange key arguments)) a (told c queue todo a)
  | closed (c : ChannelId) (result : Except ConsumeError Unit) (a : Except TransportError Unit) :
      Runs number g cancel delivery (.declaring c [] result) (.session (.close c)) a (.closed c result)
  | dropped (c : ChannelId) (result : Except ConsumeError Unit) :
      Runs number g cancel delivery (.closed c result) (.session (.dropChannel c)) ()
        (concluded result)
  | child (lanes : TokenId) :
      Runs number g cancel delivery .declared (.childToken cancel) lanes (.running lanes (lanesOf g))
  | spawned (lanes : TokenId) (consumer : Consumer) (todo : List Consumer) :
      Runs number g cancel delivery (.running lanes (consumer :: todo))
        (.spawnLane number consumer [lanes, delivery]) () (.running lanes todo)
  | joined (lanes : TokenId) (result : Except ConsumeError Unit) :
      Runs number g cancel delivery (.running lanes []) (.join number) (some result)
        (.running lanes [])
  | ended (lanes : TokenId) :
      Runs number g cancel delivery (.running lanes []) (.join number) none (.leaving lanes)
  | stopped (lanes : TokenId) :
      Runs number g cancel delivery (.running lanes []) (.cancelToken lanes) () (.running lanes [])
  | left (lanes : TokenId) :
      Runs number g cancel delivery (.leaving lanes) (.dropToken lanes) () .ended

/-- Where a run is after a turn: it waits for its lanes, or it has returned. -/
def Progressed (number : Nat) : Group.Progress → Stage → Prop
  | .inl r, stage => r.run = number ∧ stage = .running r.lanes []
  | .inr result, stage => stage = .ended ∨ ∃ e, result = .error e ∧ stage = .refused e

section Runs

variable {number : Nat} {g : Group} {cancel delivery : TokenId} {c : ChannelId}

theorem length_steps (config : ConsumerConfig) (c : ChannelId) :
    (steps config c).length = (steps config 0).length := by
  unfold steps Consumer.deadLetterSteps Consumer.bindingSteps
  cases config.deadLetterExchange <;> cases config.exchange <;> rfl

/-- The program is one declaration on the channel. -/
inductive Declares (c : ChannelId) : Transport.Session (Except TransportError Unit) → Prop where
  | exchange (name : String) (kind : ExchangeKind) (durable : Bool) :
      Declares c (Transport.Session.declareExchange c name kind durable)
  | queue (declaration : QueueDeclaration) :
      Declares c (Transport.Session.declareQueue c declaration)
  | binding (name exchange key : String) (arguments : Headers) :
      Declares c (Transport.Session.bindQueue c name exchange key arguments)

theorem declares_steps (config : ConsumerConfig) (c : ChannelId) :
    ∀ step ∈ steps config c, Declares c step := by
  intro step hstep
  rcases List.mem_append.mp hstep with hstep | hstep
  · rcases List.mem_append.mp hstep with hstep | hstep
    · unfold Consumer.deadLetterSteps at hstep
      split at hstep
      · cases hstep
      · simp only [List.mem_cons, List.not_mem_nil, or_false] at hstep
        rcases hstep with rfl | rfl | rfl
        · exact .exchange ..
        · exact .queue _
        · exact .binding ..
    · rw [List.mem_singleton.mp hstep]
      exact .queue _
  · unfold Consumer.bindingSteps at hstep
    split at hstep
    · cases hstep
    · rw [List.mem_singleton.mp hstep]
      exact .binding ..

/-- Declarations are made for a queue until one fails. -/
theorem obeys_untilError (queue : String) (todo : List String)
    {list : List (Transport.Session (Except TransportError Unit))}
    (hlist : ∀ step ∈ list, Declares c step) :
    (Consuming.session (Consumer.untilError list)).Obeys (Runs number g cancel delivery)
      (fun result stage => stage = told c queue todo result)
      (.declaring c (List.replicate list.length queue ++ todo) (.ok ())) := by
  induction list with
  | nil => rfl
  | cons step list ih =>
    have hrest := ih fun step hstep => hlist step (List.mem_cons_of_mem _ hstep)
    have hnext : ∀ a : Except TransportError Unit,
        (Consuming.session (Consumer.untilError (pure a :: list))).Obeys (Runs number g cancel delivery)
          (fun result stage => stage = told c queue todo result)
          (told c queue (List.replicate list.length queue ++ todo) a) := by
      rintro (e | _)
      · rfl
      · exact hrest
    cases hlist step List.mem_cons_self with
    | exchange =>
      refine ⟨⟨.ok (), _, .exchange _⟩, fun a stage hm => ?_⟩
      cases hm with
      | exchange => exact hnext a
    | queue =>
      refine ⟨⟨.ok (), _, .queue _⟩, fun a stage hm => ?_⟩
      cases hm with
      | queue => exact hnext a
    | binding =>
      refine ⟨⟨.ok (), _, .binding _⟩, fun a stage hm => ?_⟩
      cases hm with
      | binding => exact hnext a

/-- A consumer declares what it needs. -/
theorem obeys_declare (config : ConsumerConfig) (todo : List String) :
    (Consuming.session (Consumer.declare config c)).Obeys (Runs number g cancel delivery)
      (fun result stage => stage =
        .declaring c (match result with | .ok () => todo | .error _ => []) result)
      (.declaring c (List.replicate (steps config 0).length config.queue ++ todo) (.ok ())) := by
  have hsteps : (Consuming.session (Consumer.untilError (steps config c))).Obeys
      (Runs number g cancel delivery) (fun result stage => stage = told c config.queue todo result)
      (.declaring c (List.replicate (steps config 0).length config.queue ++ todo) (.ok ())) :=
    length_steps config c ▸ obeys_untilError config.queue todo (declares_steps config c)
  rw [Consumer.declare, Program.bind_eq, Consuming.session, Program.interpret_bind]
  refine (hsteps.mono fun result stage h => ?_).bind
  subst h
  rcases result with e | _ <;> rfl

/-- All consumers declare what they need, until one fails. -/
theorem obeys_declareEach (consumers : List Consumer) :
    (Consuming.session (Group.declareEach c consumers)).Obeys (Runs number g cancel delivery)
      (fun result stage => stage = .declaring c [] result)
      (.declaring c (declarations consumers) (.ok ())) := by
  induction consumers with
  | nil => rfl
  | cons consumer rest ih =>
    rw [Group.declareEach, Program.bind_eq, Consuming.session, Program.interpret_bind]
    refine ((obeys_declare consumer.config (declarations rest)).mono fun result stage h => ?_).bind
    subst h
    rcases result with e | _
    · rfl
    · exact ih

theorem obeys_closeAndDrop (result : Except ConsumeError Unit) :
    (Consuming.session (Transport.Session.closeAndDrop c)).Obeys (Runs number g cancel delivery)
      (fun _ stage => stage = concluded result) (.declaring c [] result) := by
  refine ⟨⟨.ok (), _, .closed c result _⟩, fun a stage hm => ?_⟩
  cases hm with
  | closed =>
    refine ⟨⟨(), _, .dropped c result⟩, fun a stage hm => ?_⟩
    cases hm with
    | dropped => rfl

/-- A group declares what it needs, and closes the channel. -/
theorem obeys_groupDeclare (g : Group) :
    (Consuming.session g.declare).Obeys (Runs number g cancel delivery)
      (fun result stage => stage = concluded result) .fresh := by
  refine ⟨⟨_, _, .opened 0⟩, fun a stage hm => ?_⟩
  cases hm with
  | unopened e => rfl
  | opened c =>
    show (Consuming.session ((Group.declareEach c g.consumers).bind fun result =>
      (Transport.Session.closeAndDrop c).bind fun _ => .done result)).Obeys _ _ _
    rw [Consuming.session, Program.interpret_bind]
    refine ((obeys_declareEach g.consumers).mono fun result stage h => ?_).bind
    subst h
    rw [Program.interpret_bind]
    exact ((obeys_closeAndDrop result).mono fun _ stage h => h).bind

theorem obeys_spawnLanes (lanes : TokenId) (consumer : Consumer) (n : Nat) (todo : List Consumer) :
    (Group.spawnLanes number consumer [lanes, delivery] n).Obeys (Runs number g cancel delivery)
      (fun _ stage => stage = .running lanes todo)
      (.running lanes (List.replicate n consumer ++ todo)) := by
  induction n with
  | zero => rfl
  | succ n ih =>
    refine ⟨⟨(), _, .spawned ..⟩, fun a stage hm => ?_⟩
    cases hm with
    | spawned => exact ih

theorem obeys_spawnAll (lanes : TokenId) (consumers : List Consumer) :
    (Group.spawnAll number [lanes, delivery] consumers).Obeys (Runs number g cancel delivery)
      (fun _ stage => stage = .running lanes [])
      (.running lanes (consumers.flatMap fun consumer =>
        List.replicate consumer.config.lanes consumer)) := by
  induction consumers with
  | nil => rfl
  | cons consumer rest ih =>
    refine ((obeys_spawnLanes lanes consumer _ _).mono fun _ stage h => ?_).bind
    subst h
    exact ih

/-- A run declares, and starts its lanes. -/
theorem obeys_run (number : Nat) (g : Group) (cancel delivery : TokenId) :
    (g.start true number cancel delivery).Obeys (Runs number g cancel delivery) (Progressed number)
      .fresh := by
  show ((Consuming.session g.declare).bind _).Obeys _ _ _
  refine ((obeys_groupDeclare g).mono fun result stage h => ?_).bind
  subst h
  rcases result with e | _
  · exact .inr ⟨e, rfl, rfl⟩
  · refine ⟨⟨(0 : Nat), _, .child 0⟩, fun a stage hm => ?_⟩
    cases hm with
    | child =>
      refine ((obeys_spawnAll a g.consumers).mono fun _ stage h => ?_).bind
      exact ⟨rfl, h⟩

/-- A run waits for its lanes. -/
theorem obeys_running {r : Group.Running} (hrun : r.run = number) :
    r.turn.Obeys (Runs number g cancel delivery) (Progressed number) (.running r.lanes []) := by
  subst hrun
  refine ⟨⟨none, _, .ended _⟩, fun joined stage hm => ?_⟩
  cases hm with
  | ended =>
    refine ⟨⟨(), _, .left _⟩, fun a stage hm => ?_⟩
    cases hm with
    | left => exact .inl rfl
  | joined _ result =>
    rcases result with e | _
    · cases hfirst : r.firstError with
      | some first => exact ⟨rfl, rfl⟩
      | none =>
        refine ⟨⟨(), _, .stopped _⟩, fun a stage hm => ?_⟩
        cases hm with
        | stopped => exact ⟨rfl, rfl⟩
    · exact ⟨rfl, rfl⟩

end Runs

end Courier.Serving
