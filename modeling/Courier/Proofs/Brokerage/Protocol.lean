import Courier.Broker
import Courier.Proofs.Protocol

/-!
# What a task of a broker has in its hands

A task that publishes, or closes the pools, has publishers in its hands on the way, and each of them
may have a channel open. `Moves` is the protocol by which they come into its hands and leave them:
one is lent and given back; those that a pool had idle are drained and closed one after another; one
that came back late is handed to a task of its own, which closes it. The publisher at work is the
first one, and a channel is open with it from its opening until it is let go (`Talk`).

Everything that a broker does with its pools keeps to it: borrowing, publishing, giving back,
closing the pools, shutting down, and closing a late publisher.
-/

namespace Courier.Brokerage

/-- The broker's token, by which a shutdown stops the consumers. -/
def delivery : TokenId := 0

/-- A publisher in the hands of a task: the pool that it is from, its number there, and the channel
that is open with it. -/
structure Held where
  guarantee : Guarantee
  number : Nat
  channel : Option ChannelId := none
  deriving DecidableEq

/-- What a task is about. -/
inductive Role where
  /-- It asks for a publisher, or is about to. -/
  | asking (guarantee : Guarantee) (cancel : TokenId)
  | borrowing
  /-- Its publisher came back to a closed pool, and is still to be handed on. -/
  | returning
  /-- It closes pools: has it stopped the consumers, and which pools has it found or made closed? -/
  | closing (stopped : Bool) (shut : List Guarantee)
  /-- It closes one publisher. -/
  | closer
  | ended
  deriving DecidableEq

/-- A task's part and its publishers, the one at work first. -/
structure Hand where
  role : Role
  held : List Held := []
  deriving DecidableEq

/-- What a task came to. -/
inductive Result where
  | acquired (result : Except PublishError ChannelPublisher)
  | published (result : Except PublishError Unit)
  /-- It saw to it that these pools are closed, and the consumers stopped if it was to. -/
  | shut (stopped : Bool) (pools : List Guarantee)
  /-- It has closed its publisher. -/
  | closed
  /-- It has let go of what it had. -/
  | gone

/-- How a request to the connection goes about the channel of a publisher. -/
inductive Talk :
    Option ChannelId → (r : Transport.Request) → Requests.Answer r → Option ChannelId → Prop where
  | opened (channel : ChannelId) : Talk none .openChannel (.ok channel) (some channel)
  | unopened (e : TransportError) : Talk none .openChannel (.error e) none
  | confirming (channel : ChannelId) (a : Except TransportError Unit) :
      Talk (some channel) (.confirmSelect channel) a (some channel)
  | publishing (channel : ChannelId) (publishing : Publishing) (options : PublishOptions)
      (a : Except TransportError Unit) :
      Talk (some channel) (.publish channel publishing options) a (some channel)
  | closing (channel : ChannelId) (a : Except TransportError Unit) :
      Talk (some channel) (.close channel) a (some channel)
  | letGo (channel : ChannelId) : Talk (some channel) (.dropChannel channel) () none

/-- The steps of a task. -/
inductive Moves : Hand → (r : Service.Request) → Requests.Answer r → Hand → Prop where
  | talk {role : Role} {h : Held} {rest : List Held} {r : Transport.Request}
      {a : Requests.Answer r} {channel : Option ChannelId} (ht : Talk h.channel r a channel) :
      Moves ⟨role, h :: rest⟩ (.pooling (.session r)) a ⟨role, { h with channel } :: rest⟩
  | lent {g : Guarantee} {cancel : TokenId} (number : Nat) (publisher : ChannelPublisher) :
      Moves ⟨.asking g cancel, []⟩ (.pooling (.acquire g cancel)) (.ok publisher)
        ⟨.borrowing, [⟨g, number, publisher.channel⟩]⟩
  | refused {g : Guarantee} {cancel : TokenId} (e : PublishError) :
      Moves ⟨.asking g cancel, []⟩ (.pooling (.acquire g cancel)) (.error e) ⟨.ended, []⟩
  | kept {g : Guarantee} {h : Held} {publisher : ChannelPublisher} (hg : h.guarantee = g)
      (hp : publisher.channel = h.channel) :
      Moves ⟨.borrowing, [h]⟩ (.pooling (.putBack g publisher)) none ⟨.ended, []⟩
  | late {g : Guarantee} {h : Held} {publisher : ChannelPublisher} (hg : h.guarantee = g)
      (hp : publisher.channel = h.channel) :
      Moves ⟨.borrowing, [h]⟩ (.pooling (.putBack g publisher)) (some publisher) ⟨.returning, [h]⟩
  | detach {h : Held} {publisher : ChannelPublisher} (hp : publisher.channel = h.channel) :
      Moves ⟨.returning, [h]⟩ (.pooling (.detach publisher)) () ⟨.ended, []⟩
  | drain {g : Guarantee} {stopped : Bool} {shut : List Guarantee}
      (idle : List (Nat × ChannelPublisher)) :
      Moves ⟨.closing stopped shut, []⟩ (.pooling (.drain g)) (idle.map (·.2))
        ⟨.closing stopped (g :: shut), idle.map fun p => ⟨g, p.1, p.2.channel⟩⟩
  | shrink {g : Guarantee} {stopped : Bool} {shut : List Guarantee} {h : Held} {rest : List Held}
      (hg : h.guarantee = g) (hc : h.channel = none) :
      Moves ⟨.closing stopped shut, h :: rest⟩ (.pooling (.shrink g)) () ⟨.closing stopped shut, rest⟩
  | stop {stopped : Bool} {shut : List Guarantee} :
      Moves ⟨.closing stopped shut, []⟩ (.consuming (.cancelToken delivery)) ()
        ⟨.closing true shut, []⟩

/-- What a task has that has come to this. -/
def Result.At : Result → Hand → Prop
  | .acquired (.ok publisher), hand =>
    ∃ g number, hand = ⟨.borrowing, [⟨g, number, publisher.channel⟩]⟩
  | .acquired (.error _), hand => hand = ⟨.ended, []⟩
  | .published _, hand => hand = ⟨.ended, []⟩
  | .shut stopped pools, hand => ∃ stopped' shut, hand = ⟨.closing stopped' shut, []⟩ ∧
    (stopped = true → stopped' = true) ∧ ∀ g ∈ pools, g ∈ shut
  | .closed, hand => (∃ h : Held, hand = ⟨.closer, [h]⟩ ∧ h.channel = none) ∨ hand = ⟨.ended, []⟩
  | .gone, hand => hand = ⟨.ended, []⟩

variable {α : Type} {g : Guarantee} {cancel : TokenId} {h : Held} {rest : List Held} {role : Role}

/-! ## Talking to the connection -/

section Talk

variable {post : α → Option ChannelId → Prop}

theorem obeys_openFresh (publisher : ChannelPublisher)
    {next : Except TransportError ChannelId → Transport.Session α}
    (hok : ∀ channel, (next (.ok channel)).Obeys Talk post (some channel))
    (herror : ∀ e, (next (.error e)).Obeys Talk post none) :
    (publisher.openFresh.bind next).Obeys Talk post none := by
  refine ⟨⟨_, _, .unopened .nacked⟩, fun a channel hm => ?_⟩
  cases hm with
  | unopened e => exact herror e
  | opened channel =>
    show ((if publisher.confirmed then _ else _ : Transport.Session _).bind next).Obeys _ _ _
    cases publisher.confirmed with
    | false => exact hok channel
    | true =>
      refine ⟨⟨_, _, .confirming channel (.ok ())⟩, fun a channel' hm => ?_⟩
      cases hm with
      | confirming =>
        cases a with
        | ok => exact hok channel
        | error e =>
          refine ⟨⟨_, _, .letGo channel⟩, fun _ channel' hm => ?_⟩
          cases hm with
          | letGo => exact herror e

/-- A publisher has a channel or opens one. -/
theorem obeys_ready (publisher : ChannelPublisher)
    {next : Except TransportError ChannelId → Transport.Session α}
    (hok : ∀ channel, (next (.ok channel)).Obeys Talk post (some channel))
    (herror : ∀ e, (next (.error e)).Obeys Talk post none) :
    (publisher.ready.bind next).Obeys Talk post publisher.channel := by
  unfold ChannelPublisher.ready
  cases publisher.channel with
  | some channel => exact hok channel
  | none => exact obeys_openFresh publisher hok herror

theorem obeys_closeAndDrop (channel : ChannelId) {next : Unit → Transport.Session α}
    (h : (next ()).Obeys Talk post none) :
    ((Transport.Session.closeAndDrop channel).bind next).Obeys Talk post (some channel) := by
  refine ⟨⟨_, _, .closing channel (.ok ())⟩, fun _ channel' hm => ?_⟩
  cases hm with
  | closing =>
    refine ⟨⟨_, _, .letGo channel⟩, fun _ channel' hm => ?_⟩
    cases hm with
    | letGo => exact h

end Talk

/-- A publish leaves the publisher with the channel that is open. -/
theorem obeys_send (publisher : ChannelPublisher) (publishing : Publishing) :
    (publisher.send publishing).Obeys Talk (fun sent channel => channel = sent.2.channel)
      publisher.channel := by
  refine obeys_ready publisher (fun channel => ?_) fun e => rfl
  refine ⟨⟨_, _, .publishing channel _ _ (.ok ())⟩, fun a channel' hm => ?_⟩
  cases hm with
  | publishing =>
    cases a with
    | ok => rfl
    | error e => exact obeys_closeAndDrop channel rfl

/-- A publisher that has been closed has no channel open. -/
theorem obeys_close (publisher : ChannelPublisher) :
    publisher.close.Obeys Talk (fun _ channel => channel = none) publisher.channel := by
  unfold ChannelPublisher.close
  cases hc : publisher.channel with
  | none => rfl
  | some channel => exact obeys_closeAndDrop channel rfl

/-! ## The programs over the pools -/

/-- The steps of a task that only uses the pools. -/
def PoolMoves (hand : Hand) (r : Pooling.Request) (a : Requests.Answer r) (hand' : Hand) : Prop :=
  Moves hand (.pooling r) a hand'

/-- What the publisher at work asks of the connection, its task asks. -/
theorem obeys_session (role : Role) (h : Held) (rest : List Held) {p : Transport.Session α}
    {post : α → Hand → Prop} {channel : Option ChannelId}
    (hp : p.Obeys Talk (fun a channel => post a ⟨role, { h with channel } :: rest⟩) channel) :
    (Pooling.session p).Obeys PoolMoves post ⟨role, { h with channel } :: rest⟩ := by
  induction p generalizing channel with
  | done a => exact hp
  | ask r next ih =>
    obtain ⟨a, channel', ht⟩ := hp.allowed
    refine ⟨⟨a, _, .talk ht⟩, fun a hand hm => ?_⟩
    cases hm with
    | talk ht => exact ih a (hp.next ht)

theorem obeys_release (hg : h.guarantee = g) {publisher : ChannelPublisher}
    (hp : publisher.channel = h.channel) :
    (Pooling.release g publisher).Obeys PoolMoves (fun _ hand => hand = ⟨.ended, []⟩)
      ⟨.borrowing, [h]⟩ := by
  refine ⟨⟨none, _, .kept hg hp⟩, fun late hand hm => ?_⟩
  cases hm with
  | kept => rfl
  | late =>
    refine ⟨⟨(), _, .detach hp⟩, fun _ hand hm => ?_⟩
    cases hm with
    | detach => rfl

theorem obeys_publish (g : Guarantee) (cancel : TokenId) (publishing : Publishing) :
    (Pooling.publish g cancel publishing).Obeys PoolMoves (fun _ hand => hand = ⟨.ended, []⟩)
      ⟨.asking g cancel, []⟩ := by
  refine ⟨⟨_, _, .refused .cancelled⟩, fun a hand hm => ?_⟩
  cases hm with
  | refused e => rfl
  | lent number publisher =>
    refine (obeys_session .borrowing ⟨g, number, none⟩ []
      ((obeys_send publisher publishing).mono fun sent channel hsent => ?_)).bind
    refine ((obeys_release rfl hsent.symm).mono fun _ hand hhand => ?_).bind
    obtain ⟨result, publisher⟩ := sent
    cases result <;> exact hhand

theorem obeys_closeEach {stopped : Bool} {shut : List Guarantee} (idle : List (Nat × ChannelPublisher)) :
    (Pooling.closeEach g (idle.map (·.2))).Obeys PoolMoves
      (fun _ hand => hand = ⟨.closing stopped shut, []⟩)
      ⟨.closing stopped shut, idle.map fun p => ⟨g, p.1, p.2.channel⟩⟩ := by
  induction idle with
  | nil => rfl
  | cons p idle ih =>
    obtain ⟨number, publisher⟩ := p
    refine (obeys_session _ ⟨g, number, none⟩ _
      ((obeys_close publisher).mono fun _ channel hchannel => ?_)).bind
    refine ⟨⟨(), _, .shrink rfl hchannel⟩, fun _ hand hm => ?_⟩
    cases hm with
    | shrink => exact ih

theorem obeys_closePool {stopped : Bool} {shut : List Guarantee} (g : Guarantee) :
    (Pooling.closePool g).Obeys PoolMoves (fun _ hand => hand = ⟨.closing stopped (g :: shut), []⟩)
      ⟨.closing stopped shut, []⟩ := by
  refine ⟨⟨_, _, .drain []⟩, fun idle hand hm => ?_⟩
  cases hm with
  | drain idle => exact obeys_closeEach idle

theorem obeys_closeAll {stopped : Bool} {shut : List Guarantee} :
    Pooling.closeAll.Obeys PoolMoves
      (fun _ hand => hand = ⟨.closing stopped (.atMostOnce :: .atLeastOnce :: shut), []⟩)
      ⟨.closing stopped shut, []⟩ := by
  refine ((obeys_closePool .atLeastOnce).mono fun _ hand hhand => ?_).bind
  subst hhand
  exact obeys_closePool .atMostOnce

/-! ## The programs of a broker -/

/-- A task that asks only for what the pools have. -/
theorem obeys_pooling {p : Pooling.Action α} {post : α → Hand → Prop} {hand : Hand}
    (hp : p.Obeys PoolMoves post hand) : (Service.pooling p).Obeys Moves post hand := by
  induction p generalizing hand with
  | done a => exact hp
  | ask r next ih =>
    obtain ⟨a, hand', hm⟩ := hp.allowed
    exact ⟨⟨a, hand', hm⟩, fun a hand' hm => ih a (hp.next hm)⟩

theorem obeys_shutdown {stopped : Bool} {shut : List Guarantee} :
    (Broker.shutdown delivery).Obeys Moves
      (fun _ hand => hand = ⟨.closing true (.atMostOnce :: .atLeastOnce :: shut), []⟩)
      ⟨.closing stopped shut, []⟩ := by
  refine ⟨⟨(), _, .stop⟩, fun _ hand hm => ?_⟩
  cases hm with
  | stop => exact obeys_pooling obeys_closeAll

theorem obeys_closer {publisher : ChannelPublisher} (hp : publisher.channel = h.channel) :
    (Service.session publisher.close).Obeys Moves
      (fun _ hand => ∃ h : Held, hand = ⟨.closer, [h]⟩ ∧ h.channel = none) ⟨.closer, [h]⟩ := by
  have hclose : publisher.close.Obeys Talk (fun _ channel => ∃ h' : Held,
      (⟨.closer, [{ h with channel }]⟩ : Hand) = ⟨.closer, [h']⟩ ∧ h'.channel = none)
      publisher.channel :=
    (obeys_close publisher).mono fun _ channel hchannel => ⟨_, rfl, hchannel⟩
  rw [hp] at hclose
  exact obeys_pooling (obeys_session .closer h [] hclose)

end Courier.Brokerage
