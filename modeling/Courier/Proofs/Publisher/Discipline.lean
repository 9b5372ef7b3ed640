import Courier.Proofs.Publisher.ChannelProtocol

/-!
# How a publisher treats its channels

`disciplined` is what comes of the channel protocol, whatever the connection answers and whatever
calls are made: at most one channel at a time, on each of them the messages between its opening and
the first failure, nothing after its end, and a fresh channel after it; and each call answers what
became of its one message.
-/

namespace Courier.ChannelPublisher

open Program (Follows follows_append)
open Transport (Request)

variable {confirmed : Bool}

/-! ## What a call answers -/

/-- Is it a message that is sent? -/
def isPublish (event : Program.Event Request) : Bool :=
  event.request matches .publish ..

/-- Why a step of a call failed, if it did. -/
def failure : (r : Request) → Requests.Answer r → Option TransportError
  | .openChannel, .error e => some e
  | .confirmSelect _, .error e => some e
  | .publish .., .error e => some e
  | .close _, .error e => some e
  | _, _ => none

/-- The first failure. -/
def firstFailure (events : List (Program.Event Request)) : Option TransportError :=
  events.findSome? fun event => failure event.request event.answer

/-- What a call asks and answers, whatever its publisher has open. -/
structure Answered (confirmed : Bool) (call : Call) (events : List (Program.Event Request))
    (result : Option (Except TransportError Unit)) : Prop where
  /-- At most one message is sent, the one that was to be published. A publisher of the confirmed
  kind asks that it is persistent and confirmed, and one of the other kind asks for neither. -/
  message : events.filter isPublish = [] ∨ ∃ publishing channel answer,
    call = .publish publishing ∧
    events.filter isPublish = [⟨.publish channel publishing (optionsOf confirmed), answer⟩]
  /-- It is a success just if the channel published the message. -/
  ok_iff : result = some (.ok ()) ↔ ∃ channel publishing,
    ⟨.publish channel publishing (optionsOf confirmed), .ok ()⟩ ∈ events
  /-- Any other publish answers what the first step that failed answered. -/
  error_iff : ∀ e, result = some (.error e) ↔
    (∃ publishing, call = .publish publishing) ∧ firstFailure events = some e
  /-- Only to close answers nothing. -/
  none_iff : result = none ↔ call = .close
  /-- A publish that closes the channel has failed on it. -/
  closes : (∃ publishing, call = .publish publishing) → ∀ channel closed,
    ⟨.close channel, closed⟩ ∈ events →
      ∃ publishing e, ⟨.publish channel publishing (optionsOf confirmed), .error e⟩ ∈ events

section Readied

variable {before : Option ChannelId} {events : List (Program.Event Request)}
  {result : Except TransportError ChannelId}

/-- To get at a channel publishes nothing and closes nothing. -/
theorem Readied.quiet (h : Readied confirmed before events result) :
    ∀ event ∈ events, isPublish event = false ∧
      ∀ channel closed, event ≠ ⟨.close channel, closed⟩ := by
  cases h with
  | opened channel => cases confirmed <;> simp [opening, isPublish]
  | _ => simp [isPublish]

theorem Readied.filter_append (h : Readied confirmed before events result)
    (more : List (Program.Event Request)) :
    (events ++ more).filter isPublish = more.filter isPublish := by
  rw [List.filter_append, List.filter_eq_nil_iff.mpr fun event he => by
    rw [(h.quiet event he).1]; decide, List.nil_append]

theorem Readied.publish_notMem (h : Readied confirmed before events result) (channel : ChannelId)
    (publishing : Publishing) (options : PublishOptions) (answer : Except TransportError Unit) :
    ⟨.publish channel publishing options, answer⟩ ∉ events :=
  fun hmem => Bool.noConfusion (h.quiet _ hmem).1

theorem Readied.close_notMem (h : Readied confirmed before events result) (channel : ChannelId)
    (closed : Except TransportError Unit) : ⟨.close channel, closed⟩ ∉ events :=
  fun hmem => (h.quiet _ hmem).2 channel closed rfl

theorem Readied.firstFailure (h : Readied confirmed before events result)
    (more : List (Program.Event Request)) :
    firstFailure (events ++ more) = match result with
      | .ok _ => firstFailure more
      | .error e => some e := by
  cases h with
  | opened channel => cases confirmed <;> rfl
  | _ => rfl

end Readied

theorem Performed.answered {before after : Option ChannelId} {call : Call}
    {events : List (Program.Event Request)} {result : Option (Except TransportError Unit)}
    (h : Performed confirmed before call events result after) :
    Answered confirmed call events result := by
  cases h with
  | astray h =>
    have hfilter := h.filter_append []
    have hfailure := h.firstFailure []
    rw [List.append_nil] at hfilter hfailure
    exact ⟨.inl hfilter, by simp [h.publish_notMem], by simp [hfailure], by simp,
      fun _ channel closed hmem => absurd hmem (h.close_notMem channel closed)⟩
  | @sent _ publishing events channel h =>
    exact ⟨.inr ⟨publishing, channel, .ok (), rfl, h.filter_append _⟩,
      ⟨fun _ => ⟨channel, publishing, List.mem_concat_self⟩, fun _ => rfl⟩,
      fun e => by rw [h.firstFailure]; simp [firstFailure, failure], by simp,
      by simp [h.close_notMem]⟩
  | @failed _ publishing events channel e closed h =>
    refine ⟨.inr ⟨publishing, channel, .error e, rfl, h.filter_append _⟩,
      by simp [h.publish_notMem],
      fun e' => by rw [h.firstFailure]; simp [firstFailure, failure], by simp,
      fun _ c answer hmem => ?_⟩
    have hclose := (List.mem_append.mp hmem).resolve_left (h.close_notMem c answer)
    obtain ⟨rfl, -⟩ : c = channel ∧ answer = closed := by simpa using hclose
    exact ⟨publishing, e, List.mem_append_right _ (List.mem_cons_self ..)⟩
  | idle => exact ⟨.inl rfl, by simp, by simp, by simp, by simp⟩
  | closed => exact ⟨.inl rfl, by simp, by simp, by simp, by simp⟩

/-- A message goes to the channel that there is. -/
theorem Performed.used {channel : ChannelId} {after : Option ChannelId} {publishing : Publishing}
    {events : List (Program.Event Request)} {result : Option (Except TransportError Unit)}
    (h : Performed confirmed (some channel) (.publish publishing) events result after) :
    ∃ answer rest,
      events = ⟨.publish channel publishing (optionsOf confirmed), answer⟩ :: rest := by
  cases h with
  | astray h => cases h
  | sent h =>
    cases h
    exact ⟨_, _, rfl⟩
  | failed h =>
    cases h
    exact ⟨_, _, rfl⟩

theorem Readied.fresh {events : List (Program.Event Request)}
    {result : Except TransportError ChannelId} (h : Readied confirmed none events result) :
    ∃ answer rest, events = ⟨.openChannel, answer⟩ :: rest := by
  cases h <;> exact ⟨_, _, rfl⟩

/-- If there is none then one is opened. -/
theorem Performed.fresh {after : Option ChannelId} {publishing : Publishing}
    {events : List (Program.Event Request)} {result : Option (Except TransportError Unit)}
    (h : Performed confirmed none (.publish publishing) events result after) :
    ∃ answer rest, events = ⟨.openChannel, answer⟩ :: rest := by
  cases h with
  | astray h => exact h.fresh
  | sent h =>
    obtain ⟨answer, rest, rfl⟩ := h.fresh
    exact ⟨answer, _, rfl⟩
  | failed h =>
    obtain ⟨answer, rest, rfl⟩ := h.fresh
    exact ⟨answer, _, rfl⟩

/-- A call leaves a channel just if it has published. -/
theorem Performed.lost {before after : Option ChannelId} {call : Call}
    {events : List (Program.Event Request)} {result : Option (Except TransportError Unit)}
    (h : Performed confirmed before call events result after) :
    after = none ↔ result ≠ some (.ok ()) := by
  cases h <;> simp

/-! ## The discipline -/

/-- How a publisher treats its channels, told from all that was asked of the connection for its
calls, one after another, and from what each call answered. -/
structure Disciplined (confirmed : Bool) (outs : List (Outcome Call Request)) : Prop where
  /-- At any time at most one channel is held. -/
  one : ∀ events, events <+: traffic outs → (held events).length ≤ 1
  /-- A message is published on a channel that has been opened, put in confirm mode once if the
  publisher is of the confirmed kind, and on which nothing but successful publishes came since. -/
  published : ∀ before channel publishing options answer after,
    traffic outs = before ++ ⟨.publish channel publishing options, answer⟩ :: after →
      Fit confirmed channel before
  /-- A publish that fails is the last on its channel, which is closed then and let go. -/
  failed : ∀ before channel publishing options e after,
    traffic outs = before ++ ⟨.publish channel publishing options, .error e⟩ :: after →
      ∃ closed rest, after = ⟨.close channel, closed⟩ :: ⟨.dropChannel channel, ()⟩ :: rest
  /-- A channel that is closed was fit for publishing until then or until a publish has just failed
  on it, and is let go of at once. -/
  closed : ∀ before channel closed after,
    traffic outs = before ++ ⟨.close channel, closed⟩ :: after →
      (Fit confirmed channel before ∨ Broken confirmed channel before) ∧
        ∃ rest, after = ⟨.dropChannel channel, ()⟩ :: rest
  /-- A channel is let go of if it has just been closed, or could not be put in confirm mode. -/
  dropped : ∀ before channel after,
    traffic outs = before ++ ⟨.dropChannel channel, ()⟩ :: after → Spent channel before
  /-- A channel that could not be put in confirm mode is let go of at once. -/
  unfit : ∀ before channel e after,
    traffic outs = before ++ ⟨.confirmSelect channel, .error e⟩ :: after →
      ∃ rest, after = ⟨.dropChannel channel, ()⟩ :: rest
  /-- A channel that was let go of is asked nothing any more, unless one of its number is opened. -/
  retired : ∀ before channel middle event after,
    traffic outs = before ++ ⟨.dropChannel channel, ()⟩ :: (middle ++ event :: after) →
      channelOf event.request = some channel → ⟨.openChannel, .ok channel⟩ ∈ middle
  /-- A message is published on the channel that is held. -/
  used : ∀ earlier out later, outs = earlier ++ out :: later →
    ∀ channel, held (traffic earlier) = [channel] → ∀ publishing, out.call = .publish publishing →
      ∃ answer rest,
        out.events = ⟨.publish channel publishing (optionsOf confirmed), answer⟩ :: rest
  /-- If none is held then a fresh one is opened for it. -/
  fresh : ∀ earlier out later, outs = earlier ++ out :: later →
    held (traffic earlier) = [] → ∀ publishing, out.call = .publish publishing →
      ∃ answer rest, out.events = ⟨.openChannel, answer⟩ :: rest
  /-- Every call but a publish that succeeds ends with no channel held. -/
  lost : ∀ earlier out later, outs = earlier ++ out :: later →
    (held (traffic (earlier ++ [out])) = [] ↔ out.result ≠ some (.ok ()))
  answered : ∀ out ∈ outs, Answered confirmed out.call out.events out.result

/-- Each call is performed from the channel that is held before it to the one that is held then. -/
theorem Served.performed_at {p p' : ChannelPublisher} {earlier later : List (Outcome Call Request)}
    {out : Outcome Call Request} (h : Served perform p (earlier ++ out :: later) p')
    (hp : p.channel = none) :
    ∃ before after, held (traffic earlier) = before.toList ∧
      held (traffic (earlier ++ [out])) = after.toList ∧
      Performed p.confirmed before out.call out.events out.result after := by
  obtain ⟨q, q', hearlier, hcall, -⟩ := h.split
  obtain ⟨hsame, hbefore⟩ := hearlier.follows hp
  have hperf := hsame ▸ (performed hcall).1
  have hout : Follows (Moves p.confirmed) .none (traffic (earlier ++ [out])) (.of q'.channel) := by
    rw [traffic, List.flatMap_append, List.flatMap_singleton]
    exact follows_append.mpr ⟨_, hbefore, hperf.follows⟩
  exact ⟨q.channel, q'.channel, (held_of_follows hbefore).trans (by rw [Phase.channel?_of]),
    (held_of_follows hout).trans (by rw [Phase.channel?_of]), hperf⟩

theorem Served.keepsDiscipline {p p' : ChannelPublisher} {outs : List (Outcome Call Request)}
    (h : Served perform p outs p') (hp : p.channel = none) : Disciplined p.confirmed outs := by
  obtain ⟨-, hfollows⟩ := h.follows hp
  exact {
    one := by
      rintro events ⟨rest, hrest⟩
      rw [← hrest] at hfollows
      obtain ⟨phase, hevents, -⟩ := follows_append.mp hfollows
      rw [held_of_follows hevents]
      exact Option.length_toList_le
    published := by
      intro before channel publishing options answer after heq
      rw [heq] at hfollows
      obtain ⟨phase, phase', hpast, hmove, -⟩ := follows_split hfollows
      cases hmove <;> exact hpast
    failed := by
      intro before channel publishing options e after heq
      rw [heq] at hfollows
      obtain ⟨phase, phase', -, hmove, hafter⟩ := follows_split hfollows
      cases hmove
      exact follows_broken hafter
    closed := by
      intro before channel closed after heq
      rw [heq] at hfollows
      obtain ⟨phase, phase', hpast, hmove, hafter⟩ := follows_split hfollows
      cases hmove with
      | closed => exact ⟨.inl hpast, follows_spent hafter⟩
      | closedBroken => exact ⟨.inr hpast, follows_spent hafter⟩
    dropped := by
      intro before channel after heq
      rw [heq] at hfollows
      obtain ⟨phase, phase', hpast, hmove, -⟩ := follows_split hfollows
      cases hmove
      exact hpast
    unfit := by
      intro before channel e after heq
      rw [heq] at hfollows
      obtain ⟨phase, phase', -, hmove, hafter⟩ := follows_split hfollows
      cases hmove
      exact follows_spent hafter
    retired := by
      intro before channel middle event after heq hon
      rw [heq] at hfollows
      obtain ⟨phase, phase', -, hmove, hafter⟩ := follows_split hfollows
      cases hmove
      obtain ⟨now, hmiddle, next, hevent, -⟩ := follows_append.mp hafter
      exact (opened_of_follows hmiddle (hevent.channel? hon)).resolve_left (by simp [Phase.channel?])
    used := by
      intro earlier out later heq channel hheld publishing hcall
      subst heq
      obtain ⟨before, after, hbefore, -, hperf⟩ := h.performed_at hp
      obtain rfl : before = some channel := Option.toList_eq_singleton_iff.mp (hbefore ▸ hheld)
      rw [hcall] at hperf
      exact hperf.used
    fresh := by
      intro earlier out later heq hheld publishing hcall
      subst heq
      obtain ⟨before, after, hbefore, -, hperf⟩ := h.performed_at hp
      obtain rfl : before = none := Option.toList_eq_nil_iff.mp (hbefore ▸ hheld)
      rw [hcall] at hperf
      exact hperf.fresh
    lost := by
      intro earlier out later heq
      subst heq
      obtain ⟨before, after, -, hafter, hperf⟩ := h.performed_at hp
      rw [hafter, Option.toList_eq_nil_iff]
      exact hperf.lost
    answered := by
      intro out hout
      obtain ⟨earlier, later, rfl⟩ := List.append_of_mem hout
      obtain ⟨before, after, -, -, hperf⟩ := h.performed_at hp
      exact hperf.answered }

/-- Whatever the connection answers, and whatever calls are made, a new publisher treats its
channels so. -/
theorem disciplined {σ : Type} (guarantee : Guarantee) (calls : List Call)
    (answer : (r : Request) → σ → Requests.Answer r × σ) (s : σ) :
    Disciplined (guarantee = .atLeastOnce) (outcomes perform answer calls (.of guarantee) s) :=
  let ⟨_, h⟩ := served_outcomes perform answer calls (.of guarantee) s
  h.keepsDiscipline rfl

end Courier.ChannelPublisher
