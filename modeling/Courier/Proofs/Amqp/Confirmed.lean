import Courier.Proofs.Amqp.Calls

/-!
# Publishes that an AMQP broker has confirmed

`brokerConfirmed` says when a publish of the confirmed kind is a success, provided that the client, on
a channel in confirm mode, answers a confirmation with an acknowledgement, a refusal or an error
(`Resolves`): just if it has accepted the message on such a channel, and the broker then acknowledged
it (`Acknowledged`). A refusal and every other failure is answered as such, and after it no message
goes to a channel that was there before.

Two things are carried from call to call: the channel that a publisher has is in confirm mode
(`Served.inConfirmMode`), and messages go to the channel that was created last (`Served.follows`).
-/

namespace Courier.Amqp

open ChannelPublisher (Served outcomes served_outcomes traffic)
open Program (Follows follows_append)

/-- A call that was made, with what it asked the client for and what it answered. -/
abbrev Made := ChannelPublisher.Outcome (Int × ChannelPublisher.Call) Call

/-! ## Confirm mode -/

/-- Neither is the channel created by this, nor closed. -/
def Keeps (channel : ChannelId) (event : Program.Event Call) : Prop :=
  event ≠ ⟨.createChannel, .ok channel⟩ ∧
    ∀ code text closed, event ≠ ⟨.close channel code text, closed⟩

/-- The channel is in confirm mode: it has been put in it, and neither created anew nor closed
since. -/
def InConfirmMode (channel : ChannelId) (before : List (Program.Event Call)) : Prop :=
  ∃ earlier since, before = earlier ++ ⟨.confirmSelect channel, .ok ()⟩ :: since ∧
    ∀ event ∈ since, Keeps channel event

theorem InConfirmMode.append {channel : ChannelId} {before more : List (Program.Event Call)}
    (h : InConfirmMode channel before) (hmore : ∀ event ∈ more, Keeps channel event) :
    InConfirmMode channel (before ++ more) := by
  obtain ⟨earlier, since, rfl, hsince⟩ := h
  exact ⟨earlier, since ++ more, List.append_assoc .., List.forall_mem_append.mpr ⟨hsince, hmore⟩⟩

theorem keeps_sending (channel : ChannelId) (now : Int) (publishing : Publishing)
    (answer : Except String Unit) : Keeps channel ⟨sending now channel publishing, answer⟩ :=
  ⟨by simp [sending], by simp [sending]⟩

theorem keeps_awaitConfirm (channel : ChannelId) (answer : Except String Confirmation) :
    Keeps channel ⟨.awaitConfirm channel, answer⟩ :=
  ⟨by simp, by simp⟩

theorem Published.keeps {now : Int} {channel : ChannelId} {publishing : Publishing}
    {events : List (Program.Event Call)} {result : Except TransportError Unit}
    (h : Published now channel publishing events result) :
    ∀ event ∈ events, Keeps channel event := by
  cases h with
  | refused cause => exact List.forall_mem_singleton.mpr (keeps_sending ..)
  | _ =>
    exact List.forall_mem_cons.mpr
      ⟨keeps_sending .., List.forall_mem_singleton.mpr (keeps_awaitConfirm ..)⟩

/-- A channel that was reached is in confirm mode, if it was when it was kept. -/
theorem Reached.inConfirmMode {held : Option ChannelId} {before events : List (Program.Event Call)}
    {channel : ChannelId} (h : Reached held events (.ok channel))
    (hbefore : ∀ c, held = some c → InConfirmMode c before) :
    InConfirmMode channel (before ++ events) := by
  cases h with
  | kept => rw [List.append_nil]; exact hbefore channel rfl
  | opened =>
    exact ⟨before ++ [⟨.createChannel, .ok channel⟩], [], List.append_cons .., fun _ h => nomatch h⟩

/-- Between two calls the channel of a publisher is in confirm mode. -/
theorem Called.inConfirmMode {held held' : Option ChannelId}
    {call : Int × ChannelPublisher.Call} {before events : List (Program.Event Call)}
    {result : Option (Except TransportError Unit)} (h : Called held call events result held')
    (hbefore : ∀ c, held = some c → InConfirmMode c before) :
    ∀ c, held' = some c → InConfirmMode c (before ++ events) := by
  cases h with
  | sent h hp =>
    intro c hc
    obtain rfl := Option.some.inj hc
    rw [← List.append_assoc]
    exact (h.inConfirmMode hbefore).append hp.keeps
  | _ => exact fun c hc => nomatch hc

theorem Served.inConfirmMode {p p' : ChannelPublisher}
    {outs : List Made} (h : Served perform p outs p')
    (hp : p = .of .atLeastOnce) :
    p'.confirmed = true ∧ ∀ c, p'.channel = some c → InConfirmMode c (traffic outs) := by
  refine h.keeps (K := fun q before => q.confirmed = true ∧
    ∀ c, q.channel = some c → InConfirmMode c before) ?_ [] ?_
  · rintro q q' call before events result ⟨hconfirmed, hmode⟩ htold
    obtain ⟨hcalled, hconfirmed'⟩ := called htold hconfirmed
    exact ⟨hconfirmed', hcalled.inConfirmMode hmode⟩
  · rw [hp]
    exact ⟨rfl, fun c hc => nomatch hc⟩

/-! ## Which channel a message goes to -/

/-- A message goes to the channel that was created last, if that has not been given up. -/
inductive Goes : Option ChannelId → (call : Call) → Requests.Answer call → Option ChannelId → Prop
    where
  | created (held : Option ChannelId) (channel : ChannelId) :
      Goes held .createChannel (.ok channel) (some channel)
  | sent (channel : ChannelId) (exchange routingKey : String) (body : Bytes)
      (properties : Properties) (answer : Except String Unit) :
      Goes (some channel) (.basicPublish channel exchange routingKey body properties) answer
        (some channel)
  | other {held held' : Option ChannelId} {call : Call} (answer : Requests.Answer call)
      (h : ∀ channel exchange routingKey body properties,
        call ≠ .basicPublish channel exchange routingKey body properties)
      (hheld : held' = held ∨ held' = none) : Goes held call answer held'

theorem Goes.of_basicPublish {held held' : Option ChannelId} {channel : ChannelId}
    {exchange routingKey : String} {body : Bytes} {properties : Properties}
    {answer : Except String Unit}
    (h : Goes held (.basicPublish channel exchange routingKey body properties) answer held') :
    held = some channel := by
  cases h with
  | sent => rfl
  | other _ h _ => exact (h _ _ _ _ _ rfl).elim

theorem created_of_follows {held held' : Option ChannelId} {events : List (Program.Event Call)}
    {channel : ChannelId} (h : Follows Goes held events held') (hheld : held' = some channel) :
    held = some channel ∨ ⟨.createChannel, .ok channel⟩ ∈ events := by
  induction events generalizing held with
  | nil =>
    obtain rfl := h
    exact .inl hheld
  | cons event rest ih =>
    obtain ⟨call, answer⟩ := event
    obtain ⟨next, hmove, hrest⟩ := h
    obtain hnext | hmem := ih hrest
    · cases hmove with
      | created held c =>
        obtain rfl := Option.some.inj hnext
        exact .inr (List.mem_cons_self ..)
      | sent => exact .inl hnext
      | other _ _ hheld =>
        obtain rfl | rfl := hheld
        · exact .inl hnext
        · cases hnext
    · exact .inr (List.mem_cons_of_mem _ hmem)

theorem Reached.follows {held : Option ChannelId} {events : List (Program.Event Call)}
    {result : Except TransportError ChannelId} (h : Reached held events result) :
    Follows Goes held events result.toOption := by
  cases h with
  | kept => rfl
  | opened channel =>
    exact ⟨_, .created none channel, _, .other _ (by simp) (.inl rfl), rfl⟩
  | refused cause => exact ⟨_, .other _ (by simp) (.inl rfl), rfl⟩
  | unfit channel cause =>
    exact ⟨_, .created none channel, _, .other _ (by simp) (.inr rfl), rfl⟩

theorem Published.follows {now : Int} {channel : ChannelId} {publishing : Publishing}
    {events : List (Program.Event Call)} {result : Except TransportError Unit}
    (h : Published now channel publishing events result) :
    Follows Goes (some channel) events (some channel) := by
  cases h with
  | refused cause => exact ⟨_, .sent .., rfl⟩
  | _ => exact ⟨_, .sent .., _, .other _ (by simp) (.inl rfl), rfl⟩

theorem Called.follows {held held' : Option ChannelId} {call : Int × ChannelPublisher.Call}
    {events : List (Program.Event Call)} {result : Option (Except TransportError Unit)}
    (h : Called held call events result held') : Follows Goes held events held' := by
  cases h with
  | astray h => exact h.follows
  | sent h hp => exact follows_append.mpr ⟨_, h.follows, hp.follows⟩
  | failed h hp =>
    exact follows_append.mpr ⟨_, h.follows, follows_append.mpr
      ⟨_, hp.follows, _, .other _ (by simp) (.inr rfl), rfl⟩⟩
  | idle => rfl
  | closed => exact ⟨_, .other _ (by simp) (.inr rfl), rfl⟩

theorem Served.follows {p p' : ChannelPublisher}
    {outs : List Made} (h : Served perform p outs p')
    (hconfirmed : p.confirmed = true) : Follows Goes p.channel (traffic outs) p'.channel := by
  refine And.right (h.keeps (K := fun q before => q.confirmed = true ∧
    Follows Goes p.channel before q.channel) ?_ [] ⟨hconfirmed, rfl⟩)
  rintro q q' call before events result ⟨hq, hbefore⟩ htold
  obtain ⟨hcalled, hq'⟩ := called htold hq
  exact ⟨hq', follows_append.mpr ⟨_, hbefore, hcalled.follows⟩⟩

/-! ## What a call answers -/

/-- How a call of the client that failed, or a refusal, is answered. -/
def failure : (call : Call) → Requests.Answer call → Option TransportError
  | .createChannel, .error cause => some (.channel cause)
  | .confirmSelect _, .error cause => some (.channel cause)
  | .basicPublish .., .error cause => some (.publish cause)
  | .awaitConfirm _, .error cause => some (.publish cause)
  | .awaitConfirm _, .ok .nack => some .nacked
  | _, _ => none

/-- The first failure. -/
def firstFailure (events : List (Program.Event Call)) : Option TransportError :=
  events.findSome? fun event => failure event.request event.answer

/-- Is it a message that is sent? -/
def isSending (event : Program.Event Call) : Bool :=
  event.request matches .basicPublish ..

/-- One message was sent to the client, the one that was to be published: as persistent, to where it
is addressed, and on a channel in confirm mode; and it was acknowledged. -/
def Acknowledged (publishing : Publishing) (before events : List (Program.Event Call)) : Prop :=
  ∃ channel properties reaching,
    events = reaching ++
      [⟨.basicPublish channel publishing.destination.exchange publishing.destination.routingKey
        publishing.body properties, .ok ()⟩, ⟨.awaitConfirm channel, .ok .ack⟩] ∧
    (∀ event ∈ reaching, isSending event = false) ∧
    InConfirmMode channel (before ++ reaching) ∧
    properties.deliveryMode = some 2 ∧
    properties.headers = some (Table.ofHeaders publishing.destination.headers)

section Answers

variable {now : Int} {publishing : Publishing} {held : Option ChannelId}
  {events more : List (Program.Event Call)}

theorem Published.firstFailure {channel : ChannelId} {result : Except TransportError Unit}
    (h : Published now channel publishing events result) (rest : List (Program.Event Call)) :
    firstFailure (events ++ rest) = match result with
      | .ok () => firstFailure rest
      | .error e => some e := by
  cases h <;> rfl

theorem Reached.firstFailure {result : Except TransportError ChannelId}
    (h : Reached held events result) (rest : List (Program.Event Call)) :
    firstFailure (events ++ rest) = match result with
      | .ok _ => firstFailure rest
      | .error e => some e := by
  cases h <;> rfl

theorem Reached.isSending_eq_false {result : Except TransportError ChannelId}
    (h : Reached held events result) : ∀ event ∈ events, isSending event = false := by
  cases h <;> simp [isSending]

theorem Called.error_iff {held' : Option ChannelId}
    {result : Option (Except TransportError Unit)}
    (h : Called held (now, .publish publishing) events result held') (e : TransportError) :
    result = some (.error e) ↔ firstFailure events = some e := by
  cases h with
  | astray h =>
    have hfirst := h.firstFailure []
    rw [List.append_nil] at hfirst
    simp [hfirst]
  | @sent _ _ _ reaching more channel h hp =>
    have hsent := hp.firstFailure []
    rw [List.append_nil] at hsent
    rw [h.firstFailure, hsent]
    simp [firstFailure]
  | failed h hp =>
    rw [h.firstFailure, hp.firstFailure]
    simp

theorem Published.nack_mem_iff {channel c : ChannelId} {result : Except TransportError Unit}
    (h : Published now channel publishing events result) :
    ⟨.awaitConfirm c, .ok .nack⟩ ∈ events ↔ c = channel ∧ result = .error .nacked := by
  cases h <;> simp [sending]
  all_goals exact fun _ hne => nomatch hne

theorem Reached.await_notMem {c : ChannelId} {answer : Except String Confirmation}
    {result : Except TransportError ChannelId} (h : Reached held events result) :
    ⟨.awaitConfirm c, answer⟩ ∉ events := by
  cases h <;> simp

theorem Reached.ne_nacked {e : TransportError} (h : Reached held events (.error e)) :
    e ≠ .nacked := by
  cases h <;> simp

theorem Called.nacked_iff {held' : Option ChannelId}
    {result : Option (Except TransportError Unit)}
    (h : Called held (now, .publish publishing) events result held') :
    result = some (.error .nacked) ↔ ∃ channel, ⟨.awaitConfirm channel, .ok .nack⟩ ∈ events := by
  cases h with
  | astray h => simp [h.await_notMem, h.ne_nacked]
  | sent h hp => simp [h.await_notMem, hp.nack_mem_iff]
  | failed h hp => simp [h.await_notMem, hp.nack_mem_iff]

theorem Called.answered {held' : Option ChannelId}
    {result : Option (Except TransportError Unit)}
    (h : Called held (now, .publish publishing) events result held') : result ≠ none := by
  cases h <;> simp

theorem Called.lost {held' : Option ChannelId} {call : Int × ChannelPublisher.Call}
    {result : Option (Except TransportError Unit)} (h : Called held call events result held')
    (hlost : result ≠ some (.ok ())) : held' = none := by
  cases h with
  | sent => exact absurd rfl hlost
  | _ => rfl

/-- A publish that is a success has been acknowledged, unless there was nothing to confirm. -/
theorem Called.acknowledged {held' : Option ChannelId} {before : List (Program.Event Call)}
    (h : Called held (now, .publish publishing) events (some (.ok ())) held')
    (hmode : ∀ c, held = some c → InConfirmMode c before)
    (hresolves : ∀ earlier channel rest,
      events = earlier ++ ⟨.awaitConfirm channel, .ok .notRequested⟩ :: rest →
        ¬InConfirmMode channel (before ++ earlier)) :
    Acknowledged publishing before events := by
  cases h with
  | @sent _ _ _ reaching more channel h hp =>
    have hreached := h.inConfirmMode hmode
    cases hp with
    | acked =>
      exact ⟨channel, propertiesOf now publishing.destination true, reaching, rfl,
        h.isSending_eq_false, hreached, rfl, rfl⟩
    | unconfirmed =>
      have hsent := hreached.append
        (List.forall_mem_singleton.mpr (keeps_sending channel now publishing (.ok ())))
      refine absurd ?_ (hresolves (reaching ++ [⟨sending now channel publishing, .ok ()⟩]) channel []
        (List.append_cons ..))
      rwa [← List.append_assoc]

/-- A publish whose message has been acknowledged is a success. -/
theorem Called.ok_of_acknowledged {held' : Option ChannelId} {before : List (Program.Event Call)}
    {result : Option (Except TransportError Unit)}
    (h : Called held (now, .publish publishing) events result held')
    (ha : Acknowledged publishing before events) : result = some (.ok ()) := by
  obtain ⟨channel, properties, reaching, rfl, -⟩ := ha
  generalize hevents : reaching ++ _ = events at h
  cases h with
  | astray h =>
    have hno := h.isSending_eq_false ⟨.basicPublish channel publishing.destination.exchange
      publishing.destination.routingKey publishing.body properties, .ok ()⟩ (hevents ▸ by simp)
    exact Bool.noConfusion hno
  | sent => rfl
  | failed h hp =>
    have hlast := congrArg List.getLast? hevents
    simp at hlast

end Answers

/-! ## The guarantee -/

/-- What an AMQP client answers: on a channel in confirm mode, a confirmation that is waited for is an
acknowledgement, a refusal or an error. -/
def Resolves (events : List (Program.Event Call)) : Prop :=
  ∀ before channel after,
    events = before ++ ⟨.awaitConfirm channel, .ok .notRequested⟩ :: after →
      ¬InConfirmMode channel before

/-- Is it an answer that there was nothing to confirm? -/
def isUnrequested : Program.Event Call → Bool
  | ⟨.awaitConfirm _, .ok .notRequested⟩ => true
  | _ => false

theorem resolves_of_all {events : List (Program.Event Call)}
    (h : events.all (fun event => !isUnrequested event) = true) : Resolves events := by
  rintro before channel after rfl
  simp [isUnrequested] at h

/-- What became of a message that was to be published, between earlier and later calls. -/
structure Guaranteed (publishing : Publishing)
    (earlier : List Made) (out : Made) (later : List Made) : Prop where
  /-- The publish is a success just if the broker has acknowledged the message. -/
  ok_iff : out.result = some (.ok ()) ↔ Acknowledged publishing (traffic earlier) out.events
  /-- It is refused just if the broker has refused the message. -/
  nacked_iff : out.result = some (.error .nacked) ↔
    ∃ channel, ⟨.awaitConfirm channel, .ok .nack⟩ ∈ out.events
  /-- It fails as the first call of the client that failed, or with the refusal. -/
  error_iff : ∀ e, out.result = some (.error e) ↔ firstFailure out.events = some e
  /-- It comes to an end. -/
  answered : out.result ≠ none
  /-- If it fails then no later message goes to a channel that was there before. -/
  retired : out.result ≠ some (.ok ()) →
    ∀ middle channel exchange routingKey body properties answer rest,
      traffic later =
        middle ++ ⟨.basicPublish channel exchange routingKey body properties, answer⟩ :: rest →
      ⟨.createChannel, .ok channel⟩ ∈ middle

theorem Served.guaranteed {p' : ChannelPublisher}
    {outs earlier later : List Made} {out : Made} {now : Int} {publishing : Publishing}
    (h : Served perform (.of .atLeastOnce) outs p') (hresolves : Resolves (traffic outs))
    (heq : outs = earlier ++ out :: later) (hcall : out.call = (now, .publish publishing)) :
    Guaranteed publishing earlier out later := by
  subst heq
  obtain ⟨q, q', hearlier, htold, hlater⟩ := h.split
  obtain ⟨hconfirmed, hmode⟩ := Served.inConfirmMode hearlier rfl
  obtain ⟨hcalled, hconfirmed'⟩ := called htold hconfirmed
  rw [hcall] at hcalled
  have htraffic : traffic (earlier ++ out :: later) =
      traffic earlier ++ (out.events ++ traffic later) := by
    rw [traffic, List.flatMap_append, List.flatMap_cons]
    rfl
  exact {
    ok_iff := by
      refine ⟨fun hok => (hok ▸ hcalled).acknowledged hmode fun first channel rest hevents => ?_,
        fun ha => hcalled.ok_of_acknowledged ha⟩
      refine hresolves (traffic earlier ++ first) channel (rest ++ traffic later) ?_
      rw [htraffic, hevents]
      simp only [List.append_assoc, List.cons_append]
    nacked_iff := hcalled.nacked_iff
    error_iff := hcalled.error_iff
    answered := hcalled.answered
    retired := by
      intro hlost middle channel exchange routingKey body properties answer rest heq
      have hfollows := Served.follows hlater hconfirmed'
      rw [hcalled.lost hlost, heq] at hfollows
      obtain ⟨state, hmiddle, next, hmove, -⟩ := follows_append.mp hfollows
      exact (created_of_follows hmiddle hmove.of_basicPublish).resolve_left (by simp) }

/-- Over any AMQP client that resolves confirmations, and whatever publishes and closes there are,
each publish of the confirmed kind is a success just if the broker has taken the message. -/
theorem brokerConfirmed {σ : Type} (calls : List (Int × ChannelPublisher.Call))
    (answer : (call : Call) → σ → Requests.Answer call × σ) (s : σ)
    (hresolves : Resolves (traffic (outcomes perform answer calls (.of .atLeastOnce) s)))
    {earlier later : List Made} {out : Made} {now : Int} {publishing : Publishing}
    (hout : outcomes perform answer calls (.of .atLeastOnce) s = earlier ++ out :: later)
    (hcall : out.call = (now, .publish publishing)) : Guaranteed publishing earlier out later :=
  let ⟨_, h⟩ := served_outcomes perform answer calls (.of .atLeastOnce) s
  Served.guaranteed h hresolves hout hcall

/-- A client whose calls all succeed, and whose broker confirms as the list says. -/
def obliging : (call : Call) → List Confirmation → Requests.Answer call × List Confirmation
  | .createChannel, script => (.ok 0, script)
  | .awaitConfirm _, confirmation :: script => (.ok confirmation, script)
  | .awaitConfirm _, [] => (.error "no confirmation", [])
  | .basicConsume .., script => (.ok 0, script)
  | .connect _, script => (.ok (), script)
  | .confirmSelect _, script => (.ok (), script)
  | .exchangeDeclare .., script => (.ok (), script)
  | .queueDeclare .., script => (.ok (), script)
  | .queueBind .., script => (.ok (), script)
  | .basicQos .., script => (.ok (), script)
  | .basicPublish .., script => (.ok (), script)
  | .close .., script => (.ok (), script)
  | .ack .., script => (.ok (), script)
  | .nack .., script => (.ok (), script)

/-- Three messages, of which the broker refuses the second. -/
def threeMessages : List Made :=
  outcomes perform obliging [(1, .publish ⟨{}, [1]⟩), (2, .publish ⟨{}, [2]⟩),
    (3, .publish ⟨{}, [3]⟩)] (.of .atLeastOnce) [.ack, .nack, .ack]

theorem brokerConfirmed_refused :
    threeMessages.map (·.result) = [some (.ok ()), some (.error .nacked), some (.ok ())] ∧
      Guaranteed ⟨{}, [2]⟩ (threeMessages.take 1) threeMessages[1] (threeMessages.drop 2) := by
  have hresolves : Resolves (traffic threeMessages) := resolves_of_all rfl
  have hout : threeMessages =
    threeMessages.take 1 ++ threeMessages[1] :: threeMessages.drop 2 := rfl
  exact ⟨rfl, brokerConfirmed _ obliging _ hresolves hout rfl⟩

end Courier.Amqp
