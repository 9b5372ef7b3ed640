import Courier.Proofs.Publisher.Serving
import Mathlib.Data.List.Induction

/-!
# The channel protocol of a publisher

Whatever the connection answers, and whatever a publisher is asked, what it asks of the connection
follows a protocol (`Moves`): it opens a channel, puts it in confirm mode if it is of the confirmed
kind, publishes on it until a publish fails or the channel is to be closed, closes it, and lets go of
it; one that cannot be put in confirm mode it lets go at once. `Performed.follows` says so of one
call, `Served.follows` of any calls.

A dialogue that follows the protocol can be taken apart at each of its requests (`follows_split`):
the phase there tells what came before (`past`), what must come after (`follows_broken`,
`follows_spent`), and which channels are held (`held_of_follows`).
-/

namespace Courier.ChannelPublisher

open Program (Follows follows_append follows_singleton)
open Transport (Request)

variable {confirmed : Bool}

/-! ## The protocol -/

/-- How far the publisher's channel has come. -/
inductive Phase where
  | none
  /-- It is not in confirm mode yet. -/
  | raw (channel : ChannelId)
  | fit (channel : ChannelId)
  /-- A publish on it has failed. -/
  | broken (channel : ChannelId)
  /-- It is only to be let go. -/
  | spent (channel : ChannelId)

/-- The phase between two calls, by the channel that the publisher has. -/
def Phase.of : Option ChannelId → Phase
  | .none => .none
  | some channel => .fit channel

/-- The channel that the publisher has. -/
def Phase.channel? : Phase → Option ChannelId
  | .none => .none
  | raw channel => some channel
  | fit channel => some channel
  | broken channel => some channel
  | spent channel => some channel

@[simp] theorem Phase.channel?_of (channel : Option ChannelId) :
    (Phase.of channel).channel? = channel := by
  cases channel <;> rfl

/-- What may be asked in a phase, and where the answer leads. -/
inductive Moves (confirmed : Bool) : Phase → (r : Request) → Requests.Answer r → Phase → Prop where
  | refused (e : TransportError) : Moves confirmed .none .openChannel (.error e) .none
  | opened (channel : ChannelId) (h : confirmed = false) :
      Moves confirmed .none .openChannel (.ok channel) (.fit channel)
  | openedRaw (channel : ChannelId) (h : confirmed = true) :
      Moves confirmed .none .openChannel (.ok channel) (.raw channel)
  | confirmed (channel : ChannelId) :
      Moves confirmed (.raw channel) (.confirmSelect channel) (.ok ()) (.fit channel)
  | unfit (channel : ChannelId) (e : TransportError) :
      Moves confirmed (.raw channel) (.confirmSelect channel) (.error e) (.spent channel)
  | sent (channel : ChannelId) (publishing : Publishing) :
      Moves confirmed (.fit channel) (.publish channel publishing (optionsOf confirmed)) (.ok ())
        (.fit channel)
  | failed (channel : ChannelId) (publishing : Publishing) (e : TransportError) :
      Moves confirmed (.fit channel) (.publish channel publishing (optionsOf confirmed)) (.error e)
        (.broken channel)
  | closed (channel : ChannelId) (answer : Except TransportError Unit) :
      Moves confirmed (.fit channel) (.close channel) answer (.spent channel)
  | closedBroken (channel : ChannelId) (answer : Except TransportError Unit) :
      Moves confirmed (.broken channel) (.close channel) answer (.spent channel)
  | dropped (channel : ChannelId) :
      Moves confirmed (.spent channel) (.dropChannel channel) () .none

theorem follows_opening (channel : ChannelId) :
    Follows (Moves confirmed) .none (opening confirmed channel) (.fit channel) := by
  cases confirmed with
  | false => exact ⟨_, .opened channel rfl, rfl⟩
  | true => exact ⟨_, .openedRaw channel rfl, _, .confirmed channel, rfl⟩

theorem Readied.follows {held : Option ChannelId} {events : List (Program.Event Request)}
    {result : Except TransportError ChannelId} (h : Readied confirmed held events result) :
    Follows (Moves confirmed) (.of held) events (.of result.toOption) := by
  cases h with
  | kept channel => rfl
  | opened channel => exact follows_opening channel
  | refused e => exact ⟨_, .refused e, rfl⟩
  | unfit channel e h =>
    exact ⟨_, .openedRaw channel h, _, .unfit channel e, _, .dropped channel, rfl⟩

theorem Performed.follows {held held' : Option ChannelId} {call : Call}
    {events : List (Program.Event Request)} {result : Option (Except TransportError Unit)}
    (h : Performed confirmed held call events result held') :
    Follows (Moves confirmed) (.of held) events (.of held') := by
  cases h with
  | astray h => exact h.follows
  | sent h => exact follows_append.mpr ⟨_, h.follows, _, .sent _ _, rfl⟩
  | failed h =>
    exact follows_append.mpr
      ⟨_, h.follows, _, .failed _ _ _, _, .closedBroken _ _, _, .dropped _, rfl⟩
  | idle => rfl
  | closed => exact ⟨_, .closed _ _, _, .dropped _, rfl⟩

/-- What is asked for any calls follows the protocol. -/
theorem Served.follows {p p' : ChannelPublisher} {outs : List (Outcome Call Request)}
    (h : Served perform p outs p') (hp : p.channel = none) :
    p'.confirmed = p.confirmed ∧
      Follows (Moves p.confirmed) .none (traffic outs) (.of p'.channel) := by
  refine h.keeps (K := fun q before => q.confirmed = p.confirmed ∧
    Follows (Moves p.confirmed) .none before (.of q.channel)) ?_ [] ⟨rfl, by rw [hp]; rfl⟩
  rintro q q' call before events result ⟨hconfirmed, hbefore⟩ htold
  obtain ⟨hperf, hsame⟩ := performed htold
  exact ⟨hsame.trans hconfirmed,
    follows_append.mpr ⟨_, hbefore, hconfirmed ▸ hperf.follows⟩⟩

/-! ## What came before a request -/

/-- Since the channel was opened, and put in confirm mode if it is to be, messages have been
published on it without a failure, and nothing else was asked. -/
def Fit (confirmed : Bool) (channel : ChannelId) (before : List (Program.Event Request)) : Prop :=
  ∃ earlier sent, before = earlier ++ opening confirmed channel ++ sent ∧
    ∀ event ∈ sent, ∃ publishing,
      event = ⟨.publish channel publishing (optionsOf confirmed), .ok ()⟩

/-- A publish on the channel, which was fit until then, has just failed. -/
def Broken (confirmed : Bool) (channel : ChannelId) (before : List (Program.Event Request)) :
    Prop :=
  ∃ earlier publishing e, Fit confirmed channel earlier ∧
    before = earlier ++ [⟨.publish channel publishing (optionsOf confirmed), .error e⟩]

/-- The channel has just been closed, or could not be put in confirm mode. -/
def Spent (channel : ChannelId) (before : List (Program.Event Request)) : Prop :=
  ∃ earlier, (∃ closed, before = earlier ++ [⟨.close channel, closed⟩]) ∨
    ∃ e, before = earlier ++ [⟨.confirmSelect channel, .error e⟩]

theorem fit_opening (confirmed : Bool) (channel : ChannelId)
    (earlier : List (Program.Event Request)) :
    Fit confirmed channel (earlier ++ opening confirmed channel) :=
  ⟨earlier, [], (List.append_nil _).symm, fun _ h => nomatch h⟩

theorem Fit.sent {channel : ChannelId} {before : List (Program.Event Request)}
    (h : Fit confirmed channel before) (publishing : Publishing) :
    Fit confirmed channel
      (before ++ [⟨.publish channel publishing (optionsOf confirmed), .ok ()⟩]) := by
  obtain ⟨earlier, sent, rfl, hsent⟩ := h
  refine ⟨earlier, sent ++ [_], List.append_assoc .., List.forall_mem_append.mpr ⟨hsent, ?_⟩⟩
  rintro _ hmem
  exact ⟨publishing, List.mem_singleton.mp hmem⟩

/-- What came before, by the phase that it led to. -/
def Past (confirmed : Bool) : Phase → List (Program.Event Request) → Prop
  | .none, _ => True
  | .raw channel, before =>
    confirmed = true ∧ ∃ earlier, before = earlier ++ [⟨.openChannel, .ok channel⟩]
  | .fit channel, before => Fit confirmed channel before
  | .broken channel, before => Broken confirmed channel before
  | .spent channel, before => Spent channel before

theorem past {before : List (Program.Event Request)} {phase : Phase}
    (h : Follows (Moves confirmed) .none before phase) : Past confirmed phase before := by
  induction before using List.reverseRecOn generalizing phase with
  | nil =>
    obtain rfl := h
    trivial
  | append_singleton before event ih =>
    obtain ⟨last, hbefore, hevent⟩ := follows_append.mp h
    have hlast := ih hbefore
    obtain ⟨request, answer⟩ := event
    cases follows_singleton.mp hevent with
    | refused e => trivial
    | opened channel hc =>
      subst hc
      exact fit_opening false channel before
    | openedRaw channel hc => exact ⟨hc, before, rfl⟩
    | confirmed channel =>
      obtain ⟨rfl, earlier, rfl⟩ := hlast
      rw [List.append_assoc]
      exact fit_opening true channel earlier
    | unfit channel e => exact ⟨before, .inr ⟨e, rfl⟩⟩
    | sent channel publishing => exact hlast.sent publishing
    | failed channel publishing e => exact ⟨before, publishing, e, hlast, rfl⟩
    | closed channel answer => exact ⟨before, .inl ⟨answer, rfl⟩⟩
    | closedBroken channel answer => exact ⟨before, .inl ⟨answer, rfl⟩⟩
    | dropped channel => trivial

/-- A dialogue is taken apart at one of its requests. -/
theorem follows_split {before after : List (Program.Event Request)}
    {event : Program.Event Request} {last : Phase}
    (h : Follows (Moves confirmed) .none (before ++ event :: after) last) :
    ∃ phase phase', Past confirmed phase before ∧
      Moves confirmed phase event.request event.answer phase' ∧
      Follows (Moves confirmed) phase' after last := by
  obtain ⟨phase, hbefore, phase', hmove, hafter⟩ := follows_append.mp h
  exact ⟨phase, phase', past hbefore, hmove, hafter⟩

/-! ## What comes after a request -/

theorem follows_spent {channel : ChannelId} {after : List (Program.Event Request)}
    {held : Option ChannelId} (h : Follows (Moves confirmed) (.spent channel) after (.of held)) :
    ∃ rest, after = ⟨.dropChannel channel, ()⟩ :: rest := by
  cases after with
  | nil => cases held <;> cases h
  | cons event rest =>
    obtain ⟨request, answer⟩ := event
    obtain ⟨next, hmove, hrest⟩ := h
    cases hmove
    exact ⟨rest, rfl⟩

theorem follows_broken {channel : ChannelId} {after : List (Program.Event Request)}
    {held : Option ChannelId} (h : Follows (Moves confirmed) (.broken channel) after (.of held)) :
    ∃ closed rest, after = ⟨.close channel, closed⟩ :: ⟨.dropChannel channel, ()⟩ :: rest := by
  cases after with
  | nil => cases held <;> cases h
  | cons event rest =>
    obtain ⟨request, answer⟩ := event
    obtain ⟨next, hmove, hrest⟩ := h
    cases hmove
    obtain ⟨rest, rfl⟩ := follows_spent hrest
    exact ⟨answer, rest, rfl⟩

/-- The channel that is asked something. -/
def channelOf : Request → Option ChannelId
  | .openChannel => none
  | .confirmSelect channel => some channel
  | .declareExchange channel .. => some channel
  | .declareQueue channel _ => some channel
  | .bindQueue channel .. => some channel
  | .qos channel _ => some channel
  | .publish channel .. => some channel
  | .consume channel .. => some channel
  | .close channel => some channel
  | .dropChannel channel => some channel
  | .dropStream _ => none
  | .ack _ => none
  | .nack .. => none

/-- A channel is the one that the publisher has when it is asked something. -/
theorem Moves.channel? {phase phase' : Phase} {request : Request}
    {answer : Requests.Answer request} {channel : ChannelId}
    (h : Moves confirmed phase request answer phase') (hon : channelOf request = some channel) :
    phase.channel? = some channel := by
  cases h <;> exact hon

/-- A channel that the publisher has it has had from the start, or has opened. -/
theorem opened_of_follows {phase phase' : Phase} {events : List (Program.Event Request)}
    {channel : ChannelId} (h : Follows (Moves confirmed) phase events phase')
    (hhas : phase'.channel? = some channel) :
    phase.channel? = some channel ∨ ⟨.openChannel, .ok channel⟩ ∈ events := by
  induction events generalizing phase with
  | nil =>
    obtain rfl := h
    exact .inl hhas
  | cons event rest ih =>
    obtain ⟨request, answer⟩ := event
    obtain ⟨next, hmove, hrest⟩ := h
    obtain hnext | hmem := ih hrest
    · cases hmove <;> first
        | exact .inl hnext
        | cases hnext; exact .inr (List.mem_cons_self ..)
        | cases hnext
    · exact .inr (List.mem_cons_of_mem _ hmem)

/-! ## The channels that are held -/

/-- Opening takes a channel, letting go of it gives it back. -/
def takes (channels : List ChannelId) : (r : Request) → Requests.Answer r → List ChannelId
  | .openChannel, .ok channel => channel :: channels
  | .dropChannel channel, _ => channels.erase channel
  | _, _ => channels

/-- The channels that were opened and not let go of. -/
def held (events : List (Program.Event Request)) : List ChannelId :=
  events.foldl (fun channels event => takes channels event.request event.answer) []

theorem Moves.takes {phase phase' : Phase} {request : Request} {answer : Requests.Answer request}
    (h : Moves confirmed phase request answer phase') :
    takes phase.channel?.toList request answer = phase'.channel?.toList := by
  cases h <;> first | rfl | exact List.erase_cons_head ..

theorem held_of_follows {phase : Phase} {events : List (Program.Event Request)}
    (h : Follows (Moves confirmed) .none events phase) : held events = phase.channel?.toList := by
  induction events using List.reverseRecOn generalizing phase with
  | nil =>
    obtain rfl := h
    rfl
  | append_singleton before event ih =>
    obtain ⟨last, hbefore, hevent⟩ := follows_append.mp h
    have hlast := ih hbefore
    rw [held] at hlast ⊢
    rw [List.foldl_append, hlast]
    exact (follows_singleton.mp hevent).takes

end Courier.ChannelPublisher
