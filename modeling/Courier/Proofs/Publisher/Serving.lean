import Courier.Proofs.Dialogue
import Courier.Publisher.Channel

/-!
# Calls on a publisher that owns a channel

A publisher is asked to publish messages and to close its channel, one call after another. `outcomes`
runs any calls over any connection and writes down what each call asked of it, was told, and
answered. `performed` lists all that one call can do, by the channel that the publisher has open
(`Performed`); every fact about calls is read off that list, and what one call keeps, all of them
keep (`Served.keeps`).
-/

namespace Courier.ChannelPublisher

open Program (Told note told_bind)
open Transport (Request Session)

/-- What a publisher is asked. -/
inductive Call where
  | publish (publishing : Publishing)
  | close

/-- Serve a call. To close answers nothing. -/
def perform (p : ChannelPublisher) :
    Call → Session (Option (Except TransportError Unit) × ChannelPublisher)
  | .publish publishing => do
    let (result, p) ← p.send publishing
    pure (some result, p)
  | .close => do pure (none, ← p.close)

/-- A call that was served. -/
structure Outcome (ι R : Type) [Requests R] where
  call : ι
  /-- What was asked for it, and answered. -/
  events : List (Program.Event R)
  result : Option (Except TransportError Unit)

section Outcomes

variable {ι R σ : Type} [Requests R]
  (serve : ChannelPublisher → ι →
    Program R (Option (Except TransportError Unit) × ChannelPublisher))

/-- Calls served one after another, by a publisher over surroundings that answer as `answer` does. -/
def outcomes (answer : (r : R) → σ → Requests.Answer r × σ) :
    List ι → ChannelPublisher → σ → List (Outcome ι R)
  | [], _, _ => []
  | call :: rest, p, s =>
    let ((result, p), s, events) := (serve p call).run (note answer) (s, [])
    ⟨call, events, result⟩ :: outcomes answer rest p s

/-- All that was asked for the calls, and answered. -/
def traffic (outs : List (Outcome ι R)) : List (Program.Event R) :=
  outs.flatMap Outcome.events

/-- Calls that can be served one after another, from a publisher to a publisher. -/
inductive Served : ChannelPublisher → List (Outcome ι R) → ChannelPublisher → Prop where
  | nil {p : ChannelPublisher} : Served p [] p
  | cons {p p' p'' : ChannelPublisher} {call : ι} {events : List (Program.Event R)}
      {result : Option (Except TransportError Unit)} {rest : List (Outcome ι R)}
      (hcall : (serve p call).Told events (result, p')) (hrest : Served p' rest p'') :
      Served p (⟨call, events, result⟩ :: rest) p''

theorem served_outcomes (answer : (r : R) → σ → Requests.Answer r × σ) (calls : List ι)
    (p : ChannelPublisher) (s : σ) : ∃ p', Served serve p (outcomes serve answer calls p s) p' := by
  induction calls generalizing p s with
  | nil => exact ⟨p, .nil⟩
  | cons call rest ih =>
    obtain ⟨events, hevents, htold⟩ := Program.told_run_note answer (serve p call) s []
    rw [List.nil_append] at hevents
    obtain ⟨p', hrest⟩ := ih _ _
    exact ⟨p', .cons (hevents ▸ htold) hrest⟩

variable {serve}

/-- Served calls are taken apart at one of them. -/
theorem Served.split {p p' : ChannelPublisher} {earlier later : List (Outcome ι R)}
    {out : Outcome ι R} (h : Served serve p (earlier ++ out :: later) p') :
    ∃ q q', Served serve p earlier q ∧ (serve q out.call).Told out.events (out.result, q') ∧
      Served serve q' later p' := by
  induction earlier generalizing p with
  | nil =>
    cases h with
    | cons hcall hrest => exact ⟨_, _, .nil, hcall, hrest⟩
  | cons first earlier ih =>
    cases h with
    | cons hcall hrest =>
      obtain ⟨q, q', hearlier, hout, hlater⟩ := ih hrest
      exact ⟨q, q', .cons hcall hearlier, hout, hlater⟩

/-- What every call keeps, of its publisher and of all that was asked so far, all calls keep. -/
theorem Served.keeps {K : ChannelPublisher → List (Program.Event R) → Prop}
    (hstep : ∀ {p p' call before events result}, K p before →
      (serve p call).Told events (result, p') → K p' (before ++ events))
    {p p' : ChannelPublisher} {outs : List (Outcome ι R)} (h : Served serve p outs p')
    (before : List (Program.Event R)) (hk : K p before) : K p' (before ++ traffic outs) := by
  induction h generalizing before with
  | nil => rwa [traffic, List.flatMap_nil, List.append_nil]
  | cons hcall hrest ih =>
    rw [traffic, List.flatMap_cons, ← List.append_assoc]
    exact ih _ (hstep hk hcall)

end Outcomes

/-! ## What a call does -/

/-- How every message is published. -/
def optionsOf (confirmed : Bool) : PublishOptions where
  persistent := confirmed
  waitForConfirm := confirmed

/-- A channel is opened and made fit for publishing. -/
def opening (confirmed : Bool) (channel : ChannelId) : List (Program.Event Request) :=
  ⟨.openChannel, .ok channel⟩ ::
    if confirmed then [⟨.confirmSelect channel, .ok ()⟩] else []

variable {confirmed : Bool}

/-- How a publisher gets at a channel, from the one that it has. -/
inductive Readied (confirmed : Bool) :
    Option ChannelId → List (Program.Event Request) → Except TransportError ChannelId → Prop where
  | kept (channel : ChannelId) : Readied confirmed (some channel) [] (.ok channel)
  | opened (channel : ChannelId) :
      Readied confirmed none (opening confirmed channel) (.ok channel)
  | refused (e : TransportError) : Readied confirmed none [⟨.openChannel, .error e⟩] (.error e)
  | unfit (channel : ChannelId) (e : TransportError) (h : confirmed = true) :
      Readied confirmed none [⟨.openChannel, .ok channel⟩, ⟨.confirmSelect channel, .error e⟩,
        ⟨.dropChannel channel, ()⟩] (.error e)

theorem readied {p : ChannelPublisher} {events : List (Program.Event Request)}
    {result : Except TransportError ChannelId} (h : p.ready.Told events result) :
    Readied p.confirmed p.channel events result := by
  obtain ⟨confirmed, _ | channel⟩ := p
  · obtain ⟨_ | channel, rest, rfl, h⟩ := h
    · obtain ⟨rfl, rfl⟩ := h
      exact .refused _
    cases confirmed with
    | false =>
      obtain ⟨rfl, rfl⟩ := h
      exact .opened channel
    | true =>
      obtain ⟨_ | _, rest, rfl, h⟩ := h
      · obtain ⟨_, _, rfl, rfl, rfl⟩ := h
        exact .unfit channel _ rfl
      · obtain ⟨rfl, rfl⟩ := h
        exact .opened channel
  · obtain ⟨rfl, rfl⟩ := h
    exact .kept channel

/-- What a call does, from the channel that the publisher has to the one that it has then. -/
inductive Performed (confirmed : Bool) :
    Option ChannelId → Call → List (Program.Event Request) → Option (Except TransportError Unit) →
      Option ChannelId → Prop where
  /-- There is no channel to publish on. -/
  | astray {held : Option ChannelId} {publishing : Publishing}
      {events : List (Program.Event Request)} {e : TransportError}
      (h : Readied confirmed held events (.error e)) :
      Performed confirmed held (.publish publishing) events (some (.error e)) none
  | sent {held : Option ChannelId} {publishing : Publishing}
      {events : List (Program.Event Request)} {channel : ChannelId}
      (h : Readied confirmed held events (.ok channel)) :
      Performed confirmed held (.publish publishing)
        (events ++ [⟨.publish channel publishing (optionsOf confirmed), .ok ()⟩])
        (some (.ok ())) (some channel)
  | failed {held : Option ChannelId} {publishing : Publishing}
      {events : List (Program.Event Request)} {channel : ChannelId} {e : TransportError}
      {closed : Except TransportError Unit} (h : Readied confirmed held events (.ok channel)) :
      Performed confirmed held (.publish publishing)
        (events ++ [⟨.publish channel publishing (optionsOf confirmed), .error e⟩,
          ⟨.close channel, closed⟩, ⟨.dropChannel channel, ()⟩])
        (some (.error e)) none
  | idle : Performed confirmed none .close [] none none
  | closed {channel : ChannelId} {closed : Except TransportError Unit} :
      Performed confirmed (some channel) .close
        [⟨.close channel, closed⟩, ⟨.dropChannel channel, ()⟩] none none

theorem performed {p p' : ChannelPublisher} {call : Call} {events : List (Program.Event Request)}
    {result : Option (Except TransportError Unit)}
    (h : (p.perform call).Told events (result, p')) :
    Performed p.confirmed p.channel call events result p'.channel ∧ p'.confirmed = p.confirmed := by
  cases call with
  | publish publishing =>
    obtain ⟨⟨sent, q⟩, events, _, rfl, hsend, rfl, heq⟩ := told_bind.mp h
    obtain ⟨rfl, rfl⟩ := Prod.mk.inj heq
    obtain ⟨ready, first, second, rfl, hready, hpublish⟩ := told_bind.mp hsend
    rw [List.append_nil]
    have hfirst := readied hready
    cases ready with
    | error e =>
      obtain ⟨rfl, heq⟩ := hpublish
      obtain ⟨rfl, rfl⟩ := Prod.mk.inj heq
      rw [List.append_nil]
      exact ⟨.astray hfirst, rfl⟩
    | ok channel =>
      obtain ⟨e | _, rest, rfl, hrest⟩ := hpublish
      · obtain ⟨closed, _, rfl, _, _, rfl, rfl, heq⟩ := hrest
        obtain ⟨rfl, rfl⟩ := Prod.mk.inj heq
        exact ⟨.failed hfirst, rfl⟩
      · obtain ⟨rfl, heq⟩ := hrest
        obtain ⟨rfl, rfl⟩ := Prod.mk.inj heq
        exact ⟨.sent hfirst, rfl⟩
  | close =>
    obtain ⟨confirmed, _ | channel⟩ := p
    · obtain ⟨rfl, heq⟩ := h
      obtain ⟨rfl, rfl⟩ := Prod.mk.inj heq
      exact ⟨.idle, rfl⟩
    · obtain ⟨closed, _, rfl, _, _, rfl, rfl, heq⟩ := h
      obtain ⟨rfl, rfl⟩ := Prod.mk.inj heq
      exact ⟨.closed, rfl⟩

end Courier.ChannelPublisher
