import Courier.Proofs.Brokerage.Protocol
import Courier.Proofs.Publisher.Calls

/-!
# A broker's publishers at work

Any number of tasks publish through one broker, borrow publishers for a time, close pools and shut
the broker down. Each is the program that it is, and goes on by one request at a time, or by one step
of a look at a pool, so that between any two of them all others may go on. A task that is `ready` can
go on: it has just come, or got its last answer, or is in the midst of a look, or has been woken by a
pool, by its token or by the connection. When it has to wait it is ready no longer. Nobody is kept
from looking before, so a task may also run that is not ready.

A publish may be let go of where it has to wait, and so may a guard; what is left of it then is to give
back the publisher with the channel that is open with it. A late publisher is closed by a task that is
spawned for it, or only let go of where no task can be spawned.

Publishers bear the numbers of their making, at which neither the pools nor the programs look. Which
channels are open, and which publishers have been closed, is noted on the side.
-/

namespace Courier.Brokerage

open Pooling (Reaction)

/-- What one may ask a broker for. -/
inductive Call where
  | acquire (guarantee : Guarantee) (cancel : TokenId)
  | publish (guarantee : Guarantee) (cancel : TokenId) (destination : Destination) (body : Bytes)
  | closePool (guarantee : Guarantee)
  | shutdown

namespace Call

def program (broker : Broker) : Call → Service.Action Result
  | .acquire g cancel =>
    (Service.pooling (Pooling.acquire g cancel)).bind fun result => .done (.acquired result)
  | .publish g cancel destination body =>
    (Service.pooling (broker.publish cancel destination body g)).bind fun result =>
      .done (.published result)
  | .closePool g => (Service.pooling (Pooling.closePool g)).bind fun _ => .done (.shut false [g])
  | .shutdown =>
    (Broker.shutdown delivery).bind fun _ => .done (.shut true [.atLeastOnce, .atMostOnce])

/-- What comes of it, unless it is let go of. -/
def Comes : Option Call → Result → Prop
  | some (.acquire ..), result => ∃ r, result = .acquired r
  | some (.publish ..), result => ∃ r, result = .published r
  | some (.closePool g), result => result = .shut false [g]
  | some .shutdown, result => result = .shut true [.atLeastOnce, .atMostOnce]
  | none, result => result = .closed

/-- What its task has to begin with. -/
def hand : Call → Hand
  | .acquire g cancel => ⟨.asking g cancel, []⟩
  | .publish g cancel _ _ => ⟨.asking g cancel, []⟩
  | .closePool _ => ⟨.closing false [], []⟩
  | .shutdown => ⟨.closing false [], []⟩

/-- The token by which its wait is cancelled, if it may wait. -/
def cancel? : Call → Option TokenId
  | .acquire _ cancel => some cancel
  | .publish _ cancel _ _ => some cancel
  | .closePool _ => none
  | .shutdown => none

end Call

structure Task where
  /-- What was asked for. A late publisher is closed without anyone asking. -/
  call : Option Call
  rest : Service.Action Result
  hand : Hand
  /-- How far it has come in looking for a publisher. -/
  look : Pool.Look := .rests
  /-- What it has asked of the connection. -/
  asked : List Transport.Request := []

/-- How the surroundings meet a task that goes on. -/
structure Surroundings where
  /-- The answer of the connection, if it has come. -/
  session : (r : Transport.Request) → Option (Requests.Answer r)
  /-- Does the task see that its wait has been cancelled before it sees a wake-up? -/
  cancelFirst : Bool
  /-- Can a task be spawned that closes a late publisher? -/
  spawns : Bool := true

structure System where
  pools : Guarantee → Pool (Nat × ChannelPublisher)
  tokens : Tokens
  tasks : List Task := []
  /-- The tasks that can go on. -/
  ready : List Nat := []
  /-- The channels that were opened and have not been let go of. -/
  channels : List ChannelId := []
  /-- The publishers that were idle when their pool was closed, and have been closed since. -/
  closed : List (Guarantee × Nat) := []
  /-- The publishers that came back late, and have been closed since. -/
  closedLate : List (Guarantee × Nat) := []
  /-- The publishers that came back late where no task could be spawned to close them. -/
  dropped : List (Guarantee × Nat) := []

inductive Event where
  | start (call : Call)
  /-- A task goes on. -/
  | run (task : Nat) (w : Surroundings)
  /-- The connection has an answer for a task. -/
  | arrive (task : Nat)
  /-- Who has a guard publishes with it. -/
  | send (task : Nat) (publishing : Publishing)
  /-- A guard is dropped. -/
  | drop (task : Nat)
  /-- A call is let go of that waits for a publisher or is at work with one. -/
  | abort (task : Nat)
  | cancel (token : TokenId)
  | newToken
  | childToken (parent : TokenId)

/-- The publisher at work after an answer of the connection. -/
def Held.heard (h : Held) : (r : Transport.Request) → Requests.Answer r → Held
  | .openChannel, .ok channel => { h with channel := some channel }
  | .dropChannel _, _ => { h with channel := none }
  | _, _ => h

/-- The open channels after an answer of the connection. -/
def openAfter (channels : List ChannelId) :
    (r : Transport.Request) → Requests.Answer r → List ChannelId
  | .openChannel, .ok channel => channel :: channels
  | .dropChannel channel, _ => channels.erase channel
  | _, _ => channels

def Hand.heard (hand : Hand) (r : Transport.Request) (a : Requests.Answer r) : Hand :=
  match hand.held with
  | [] => hand
  | h :: rest => { hand with held := h.heard r a :: rest }

/-- One pool more has been found or made closed. -/
def Role.shutting (g : Guarantee) : Role → Role
  | .closing stopped shut => .closing stopped (g :: shut)
  | role => role

/-- The consumers have been stopped. -/
def Role.stopping : Role → Role
  | .closing _ shut => .closing true shut
  | role => role

/-- The publisher of a pool, as the one who holds it knows it. -/
def heldFrom (g : Guarantee) (p : Nat × ChannelPublisher) : Held :=
  ⟨g, p.1, p.2.channel⟩

/-- A publisher's pool and its number there. -/
def Held.id (h : Held) : Guarantee × Nat :=
  (h.guarantee, h.number)

/-- What of a publish's channel is left when it is let go of at this request: a channel that was being
fitted for publishing, or closed, goes with it. -/
def Held.leftBy (h : Held) : Transport.Request → Held
  | .publish .. => h
  | _ => { h with channel := none }

namespace System

variable (broker : Broker) (s : System)

/-- The pools of a new broker. -/
def new (config : PoolConfig) : System where
  pools := fun g => Pool.new config (Pooling.numbered g)
  tokens := { tokens := [{}] }

def setPool (g : Guarantee) (pool : Pool (Nat × ChannelPublisher)) : System :=
  { s with pools := Function.update s.pools g pool }

def setTask (i : Nat) (task : Task) : System :=
  { s with tasks := s.tasks.set i task }

/-- Let tasks go on. -/
def wake (tasks : List Nat) : System :=
  { s with ready := s.ready.union tasks }

/-- A task has to wait. -/
def rest (i : Nat) : System :=
  { s with ready := s.ready.filter (· != i) }

def spawn (task : Task) : System :=
  { s with tasks := s.tasks ++ [task] }.wake [s.tasks.length]

/-- Change the tokens, and wake whom that concerns. -/
def setTokens (tokens : Tokens) : System :=
  { s with tokens := { tokens with woken := [] } }.wake tokens.woken

/-! ## The answers -/

/-- The next step of a task in looking for a publisher. -/
def acquire (i : Nat) (task : Task) (w : Surroundings) (g : Guarantee) (cancel : TokenId) :
    Reaction Task (Except PublishError ChannelPublisher) × System :=
  let (progress, pool, woken) := (s.pools g).step (Pooling.numbered g)
    (s.tokens.isCancelled cancel) w.cancelFirst i task.look
  let s := (s.setPool g pool).wake woken
  match progress with
  | .goesOn look => (.goesOn { task with look }, s)
  | .comes .waits => (.waits, { s with tokens := s.tokens.register cancel i })
  | .comes (.refused e) =>
    (.answered (.error e) { task with hand := ⟨.ended, []⟩, look := .rests },
      { s with tokens := s.tokens.unregister cancel i })
  | .comes (.lent p) =>
    (.answered (.ok p.2) { task with hand := ⟨.borrowing, [heldFrom g p]⟩, look := .rests },
      { s with tokens := s.tokens.unregister cancel i })

def putBack (task : Task) (g : Guarantee) (publisher : ChannelPublisher) :
    Reaction Task (Option ChannelPublisher) × System :=
  match task.hand.held with
  | [] => (.waits, s)
  | h :: _ =>
    let (late, pool, woken) := (s.pools g).putBack (h.number, publisher)
    let hand : Hand :=
      match late with
      | none => ⟨.ended, []⟩
      | some _ => { task.hand with role := .returning }
    (.answered (late.map (·.2)) { task with hand }, (s.setPool g pool).wake woken)

def drain (task : Task) (g : Guarantee) : Reaction Task (List ChannelPublisher) × System :=
  let (idle, pool, woken) := (s.pools g).drain
  let hand : Hand := ⟨task.hand.role.shutting g, idle.map (heldFrom g) ++ task.hand.held⟩
  (.answered (idle.map (·.2)) { task with hand }, (s.setPool g pool).wake woken)

def shrink (task : Task) (g : Guarantee) : Reaction Task Unit × System :=
  (.answered () { task with hand := { task.hand with held := task.hand.held.tail } },
    { s.setPool g (s.pools g).shrink with
      closed := s.closed ++ task.hand.held.head?.toList.map Held.id })

/-- A publisher is handed to a task that closes it. If none can be spawned, it is only let go of, and
its channel with it. -/
def detach (task : Task) (w : Surroundings) (publisher : ChannelPublisher) :
    Reaction Task Unit × System :=
  (.answered () { task with hand := ⟨.ended, []⟩ },
    if w.spawns then
      s.spawn {
        call := none
        rest := (Service.session publisher.close).bind fun _ => .done .closed
        hand := { task.hand with role := .closer } }
    else
      { s with
        dropped := s.dropped ++ task.hand.held.map Held.id
        channels := s.channels.diff (task.hand.held.flatMap (·.channel.toList)) })

/-- What comes of a request of a task. -/
def answer (i : Nat) (task : Task) (w : Surroundings) :
    (r : Service.Request) → Reaction Task (Requests.Answer r) × System
  | .pooling (.session r) =>
    match w.session r with
    | none => (.waits, s)
    | some a => (.answered a { task with hand := task.hand.heard r a, asked := task.asked ++ [r] },
        { s with channels := openAfter s.channels r a })
  | .pooling (.acquire g cancel) => s.acquire i task w g cancel
  | .pooling (.putBack g publisher) => s.putBack task g publisher
  | .pooling (.drain g) => s.drain task g
  | .pooling (.shrink g) => s.shrink task g
  | .pooling (.detach publisher) => s.detach task w publisher
  | .consuming (.cancelToken token) =>
    (.answered () { task with hand := { task.hand with role := task.hand.role.stopping } },
      s.setTokens (s.tokens.cancel token))
  | _ => (.waits, s)

/-! ## The events -/

/-- A task that is done needs not go on. Of one that has closed a publisher this is noted. -/
def finish (i : Nat) (task : Task) : System :=
  match task.hand.role with
  | .closer =>
    ({ s with closedLate := s.closedLate ++ task.hand.held.map Held.id }.setTask i
      { task with hand := ⟨.ended, []⟩ }).rest i
  | _ => s.rest i

def run (i : Nat) (w : Surroundings) : System :=
  match s.tasks[i]? with
  | none => s
  | some task =>
    match task.rest with
    | .done _ => s.finish i task
    | .ask r next =>
      match s.answer i task w r with
      | (.waits, s) => s.rest i
      | (.goesOn task, s) => (s.setTask i task).wake [i]
      | (.answered a task, s) => (s.setTask i { task with rest := next a }).wake [i]

/-- A task for a call whose token there is. -/
def start (call : Call) : System :=
  if call.cancel?.all (· < s.tokens.tokens.length) then
    s.spawn { call := some call, rest := call.program broker, hand := call.hand }
  else s

def arrive (i : Nat) : System :=
  match s.tasks[i]? with
  | some ⟨_, .ask (.pooling (.session _)) _, _, _, _⟩ => s.wake [i]
  | _ => s

def send (i : Nat) (publishing : Publishing) : System :=
  match s.tasks[i]? with
  | some task =>
    match task.rest with
    | .done (.acquired (.ok publisher)) =>
      (s.setTask i { task with
        rest := (Service.session (publisher.send publishing)).bind fun sent =>
          .done (.acquired (.ok sent.2)) }).wake [i]
    | _ => s
  | none => s

/-- What is left to do for a task that lets go of its publisher. -/
def giveBack (i : Nat) (task : Task) (h : Held) (publisher : ChannelPublisher) : System :=
  (s.setTask i { task with
    hand := ⟨.borrowing, [h]⟩
    rest := (Service.pooling (Pooling.release h.guarantee publisher)).bind fun _ =>
      .done .gone }).wake [i]

def drop (i : Nat) : System :=
  match s.tasks[i]? with
  | some task =>
    match task.rest, task.hand.held with
    | .done (.acquired (.ok publisher)), h :: _ => s.giveBack i task h publisher
    | _, _ => s
  | none => s

def abort (i : Nat) : System :=
  match s.tasks[i]? with
  | some task =>
    match task.rest, task.hand with
    | .ask (.pooling (.acquire g cancel)) _, _ =>
      if task.look = .rests then
        let (pool, woken) := (s.pools g).abandon i
        (({ s.setPool g pool with tokens := s.tokens.unregister cancel i }.setTask i
          { task with hand := ⟨.ended, []⟩, rest := .done .gone }).rest i).wake woken
      else s
    | .ask (.pooling (.session r)) _, ⟨.borrowing, [h]⟩ =>
      let h' := h.leftBy r
      let channels :=
        if h'.channel = h.channel then s.channels else s.channels.diff h.channel.toList
      { s with channels }.giveBack i task h'
        { ChannelPublisher.of h.guarantee with channel := h'.channel }
    | _, _ => s
  | none => s

def step : Event → System
  | .start call => s.start broker call
  | .run i w => s.run i w
  | .arrive i => s.arrive i
  | .send i publishing => s.send i publishing
  | .drop i => s.drop i
  | .abort i => s.abort i
  | .cancel token => s.setTokens (s.tokens.cancel token)
  | .newToken => { s with tokens := s.tokens.add.2 }
  | .childToken parent => { s with tokens := (s.tokens.addChild parent).2 }

/-- Any interleaving of events. -/
def after (events : List Event) : System :=
  events.foldl (step broker) s

end System

end Courier.Brokerage
