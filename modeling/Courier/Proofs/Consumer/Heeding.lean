import Courier.Proofs.Consumer.Course
import Courier.Proofs.Memory.Streams

/-!
# Lanes that end well

A lane ends with success only after it has been told to stop. `Heeds` is the protocol of being told:
all that a lane asks for leaves it as it is, but for a look at its tokens that finds one cancelled. A
stream that ends would end a lane untold; that of a lane does not, as its channel is open and its
queue is there (`Good.not_ended`).

`heeding_after` says so of all lanes, after any events: one of the tokens of a lane that has ended with
success is cancelled (`Heeding.told`).
-/

namespace Courier.Serving

open Consuming (Request)
open Delivery (again)

variable {α : Type} {s s' : System} {i j : Nat} {lane : Worker} {heard : Bool}

/-! ## What a lane hears -/

/-- What a lane has heard, and what it hears: that it is to stop. -/
inductive Heeds : Bool → (r : Request) → Requests.Answer r → Bool → Prop where
  | session {heard : Bool} {r : Transport.Request} (a : Requests.Answer r) :
      Heeds heard (.session r) a heard
  | handler {heard : Bool} {r : Handler.Request} (a : Requests.Answer r) :
      Heeds heard (.handler r) a heard
  | stopped {heard : Bool} (stream : StreamId) (stops : List TokenId) :
      Heeds heard (.receive stream stops) .stopped true
  | failed {heard : Bool} {stream : StreamId} {stops : List TokenId} (e : TransportError) :
      Heeds heard (.receive stream stops) (.failed e) heard
  | delivered {heard : Bool} {stream : StreamId} {stops : List TokenId} (delivery : DeliveryId)
      (message : Message) : Heeds heard (.receive stream stops) (.delivered delivery message) heard

/-- A lane that ends with success has been told to stop. -/
def Heeded : Lane ⊕ Except ConsumeError Unit → Bool → Prop
  | .inr (.ok ()), heard => heard = true
  | _, _ => True

/-- A session obeys a protocol that looks at no request to the connection. -/
theorem obeys_session {G : Type} {moves : G → (r : Request) → Requests.Answer r → G → Prop} {g : G}
    (hmay : ∀ (r : Transport.Request) (a : Requests.Answer r), moves g (.session r) a g)
    (hstays : ∀ (r : Transport.Request) (a : Requests.Answer r) (g' : G),
      moves g (.session r) a g' → g' = g) (p : Transport.Session α) :
    (Consuming.session p).Obeys moves (fun _ g' => g' = g) g := by
  induction p with
  | done a => rfl
  | ask r next ih =>
    obtain ⟨a⟩ := Transport.nonempty_answer r
    refine ⟨⟨a, g, hmay r a⟩, fun a g' hm => ?_⟩
    obtain rfl := hstays r a g' hm
    exact ih a

theorem heeds_session (p : Transport.Session α) :
    (Consuming.session p).Obeys Heeds (fun _ heard' => heard' = heard) heard :=
  obeys_session (fun _ a => .session a) (fun _ _ _ hm => by cases hm; rfl) p

theorem heeds_handling (p : Handling α) :
    (Consuming.handling p).Obeys Heeds (fun _ heard' => heard' = heard) heard := by
  induction p with
  | done a => rfl
  | ask r next ih =>
    have hsome : Nonempty (Requests.Answer r) := by
      cases r <;> first | exact ⟨()⟩ | exact ⟨(0 : Nat)⟩ | exact ⟨.error .nacked⟩
    obtain ⟨a⟩ := hsome
    refine ⟨⟨a, _, .handler a⟩, fun a heard' hm => ?_⟩
    cases hm with
    | handler => exact ih a

theorem heeds_leave (channel : ChannelId) {result : Lane ⊕ Except ConsumeError Unit}
    (h : Heeded result heard) : (Lane.leave channel result).Obeys Heeds Heeded heard :=
  ((heeds_session _).mono fun _ _ heq => heq ▸ h).bind

theorem heeds_finish (lane : Lane) {result : Except ConsumeError Unit}
    (h : Heeded (.inr result) heard) : (lane.finish result).Obeys Heeds Heeded heard :=
  ((heeds_session _).mono fun _ _ heq => heq ▸ heeds_leave _ h).bind

/-- A lane reads on, or ends. -/
theorem heeds_turn (lane : Lane) (heard : Bool) : lane.turn.Obeys Heeds Heeded heard := by
  refine ⟨⟨_, _, .stopped _ _⟩, fun received heard' hm => ?_⟩
  cases hm with
  | stopped => exact heeds_finish lane rfl
  | failed e => exact heeds_finish lane trivial
  | delivered delivery message =>
    show ((lane.consumer.process delivery message).bind fun _ => Program.done (Sum.inl lane)).Obeys
      Heeds Heeded heard
    refine Program.Obeys.bind (Program.Obeys.bind ?_)
    exact (heeds_handling _).mono fun outcome _ heq => (heeds_session _).mono fun _ _ _ => trivial

/-- A lane starts. -/
theorem heeds_start (consumer : Consumer) (stops : List TokenId) :
    (Lane.start consumer stops).Obeys Heeds Heeded heard := by
  refine ((heeds_session _).mono fun opened _ heq => ?_).bind
  rcases opened with e | channel
  · trivial
  refine ((heeds_session _).mono fun limited _ heq => ?_).bind
  rcases limited with e | _
  · exact heeds_leave channel trivial
  refine ((heeds_session _).mono fun consumed _ heq => ?_).bind
  rcases consumed with e | stream
  · exact heeds_leave channel trivial
  · trivial

/-- A lane that has done its turn takes the next one. -/
theorem heeds_again {p : Consuming.Action (Lane ⊕ Except ConsumeError Unit)}
    (h : p.Obeys Heeds Heeded heard) : (again p).Obeys Heeds Heeded heard := by
  rcases p with (reading | result) | _
  · exact heeds_turn reading heard
  · exact h
  · exact h

/-! ## Streams of lanes -/

/-- A lane that looks for a message looks at its own tokens, and its stream has not ended. -/
theorem Good.not_ended (h : Good none s) (hget : s.lanes[j]? = some lane) {stream : StreamId}
    {stops : List TokenId}
    {next : Requests.Answer (Request.receive stream stops) →
      Consuming.Action (Lane ⊕ Except ConsumeError Unit)}
    (hrest : lane.rest = .ask (.receive stream stops) next) :
    stops = lane.stops ∧ ((s.broker.next stream).1 = .waiting ∨
      ∃ delivery message, (s.broker.next stream).1 = .delivered delivery message) := by
  obtain ⟨place, hgood⟩ := h.lane j lane hget nofun
  have hobeys := hgood.obeys
  rw [hrest] at hobeys
  have hreading : stops = lane.stops ∧ ∃ c, place = .reading c stream := by
    obtain ⟨a, place', hm⟩ := hobeys.allowed
    cases hm with
    | taken c => exact ⟨rfl, c, rfl⟩
    | stopped c => exact ⟨rfl, c, rfl⟩
  obtain ⟨rfl, c, rfl⟩ := hreading
  obtain ⟨-, c', hc, hstream⟩ := hgood.has.stream stream rfl
  have hopen := (hgood.has.channels.mine c' hc).2
  have hexists := Memory.queueExists_after s.history _ (List.mem_of_getElem? hstream)
  exact ⟨rfl, (Memory.next_of_open hstream hexists hopen).imp_right fun ⟨message, hnext⟩ =>
    ⟨_, message, hnext⟩⟩

/-! ## All lanes -/

/-- One of the tokens of a lane is cancelled. -/
def System.Told (s : System) (lane : Worker) : Prop :=
  ∃ token ∈ lane.stops, s.tokens.isCancelled token = true

/-- What holds of all lanes: they have been told what they have heard. -/
def Heeding (s : System) : Prop :=
  ∀ lane ∈ s.lanes, ∃ heard, lane.rest.Obeys Heeds Heeded heard ∧ (heard = true → s.Told lane)

theorem System.Told.mono (h : s.Told lane)
    (hcancelled : ∀ token, s.tokens.isCancelled token = true → s'.tokens.isCancelled token = true) :
    s'.Told lane := by
  obtain ⟨token, hmem, hc⟩ := h
  exact ⟨token, hmem, hcancelled token hc⟩

theorem Heeding.beside (h : Heeding s) (hbeside : Beside s s') : Heeding s' := by
  intro lane hmem
  rw [hbeside.lanes] at hmem
  obtain ⟨heard, hobeys, htold⟩ := h lane hmem
  exact ⟨heard, hobeys, fun hh => (htold hh).mono hbeside.cancelled⟩

theorem lanes_goOn (s : System) (j : Nat) (lane : Worker)
    (p : Consuming.Action (Lane ⊕ Except ConsumeError Unit)) :
    (s.goOn j lane p).lanes = s.lanes.set j { lane with rest := p } ∧
      (s.goOn j lane p).tokens = s.tokens := by
  rcases p with (reading | result) | _ <;> exact ⟨rfl, rfl⟩

theorem Heeding.goOn (h : Heeding s) {p : Consuming.Action (Lane ⊕ Except ConsumeError Unit)}
    (hobeys : p.Obeys Heeds Heeded heard) (htold : heard = true → s.Told lane) :
    Heeding (s.goOn j lane p) := by
  obtain ⟨hlanes, htokens⟩ := lanes_goOn s j lane p
  intro lane' hmem
  rw [hlanes] at hmem
  simp only [System.Told, htokens]
  rcases List.mem_or_eq_of_mem_set hmem with hmem | rfl
  · exact h lane' hmem
  · exact ⟨heard, hobeys, htold⟩

theorem heeding_runLane (hgood : Good none s) (h : Heeding s) (j : Nat)
    (w : (r : Handler.Request) → Requests.Answer r) : Heeding (s.runLane j w) := by
  cases hget : s.lanes[j]? with
  | none =>
    simp only [System.runLane, hget]
    exact h
  | some lane =>
  cases hrest : lane.rest with
  | done result =>
    simp only [System.runLane, hget, hrest]
    exact h
  | ask r next =>
  obtain ⟨heard, hobeys, htold⟩ := h lane (List.mem_of_getElem? hget)
  rw [hrest] at hobeys
  have hbeside := beside_answerLane s j w r
  have told : heard = true → (s.answerLane j w r).2.Told lane := fun hh =>
    (htold hh).mono hbeside.cancelled
  -- whatever it is answered, it has heard it before or been told so
  have goes : ∀ a, (s.answerLane j w r).1 = some a → ∃ heard', Heeds heard r a heard' ∧
      (heard' = true → (s.answerLane j w r).2.Told lane) := by
    intro a ha
    cases r with
    | session r => exact ⟨heard, .session a, told⟩
    | handler r => exact ⟨heard, .handler a, told⟩
    | receive stream stops =>
      obtain ⟨rfl, hnext⟩ := hgood.not_ended hget hrest
      change (s.receive j stream lane.stops).1 = some a at ha
      unfold System.receive at ha
      split at ha
      · rename_i hstop
        cases ha
        obtain ⟨token, hmem, hc⟩ := List.any_eq_true.mp hstop
        exact ⟨true, .stopped _ _, fun _ => ⟨token, hmem, hbeside.cancelled token hc⟩⟩
      · rcases hnext with hnext | ⟨delivery, message, hnext⟩
        · rw [hnext] at ha
          cases ha
        · rw [hnext] at ha
          cases ha
          exact ⟨heard, .delivered delivery message, told⟩
    | _ => cases ha
  rw [System.runLane_eq hget hrest]
  have hbefore := h.beside hbeside
  generalize s.answerLane j w r = p at hbefore goes
  obtain ⟨a | a, s'⟩ := p
  · exact hbefore.beside (beside_rest s' j)
  · obtain ⟨heard', hm, htold'⟩ := goes a rfl
    exact hbefore.goOn (heeds_again (hobeys.next hm)) htold'

/-- A lane that starts has heard nothing. -/
theorem Heeding.spawn (h : Heeding s) (number : Nat) (consumer : Consumer) (stops : List TokenId) :
    Heeding (s.spawn (.fresh number consumer stops)) := by
  intro lane hmem
  rcases List.mem_append.mp hmem with hmem | hmem
  · exact h lane hmem
  · rw [List.mem_singleton.mp hmem]
    exact ⟨false, heeds_start consumer stops, nofun⟩

theorem heeding_runRun (hgood : Good none s) (h : Heeding s) (i : Nat) : Heeding (s.runRun i) := by
  unfold System.runRun
  split
  · exact h
  · rename_i run hget
    split
    · exact h
    · rename_i r next hrest
      have hanswer : Heeding (s.answerRun i run r).2 := by
        have hp := hgood.proper
        cases r with
        | spawnLane number consumer stops => exact h.spawn number consumer stops
        | childToken parent => exact h.beside ⟨rfl, rfl, (hp.later_addChild parent).cancelled⟩
        | cancelToken token => exact h.beside ⟨rfl, rfl, (hp.later_cancel token).cancelled⟩
        | dropToken token => exact h.beside ⟨rfl, rfl, (hp.later_dropChild token).cancelled⟩
        | _ => exact h
      generalize s.answerRun i run r = p at hanswer
      obtain ⟨a | a, s'⟩ := p
      · exact hanswer
      · exact hanswer

theorem Heeding.step (hgood : Good none s) (h : Heeding s) (e : Event) : Heeding (s.step e) := by
  have hp := hgood.proper
  cases e with
  | run i => exact heeding_runRun hgood h i
  | lane j w => exact heeding_runLane hgood h j w
  | start g cancel delivery =>
    simp only [System.step, System.start]
    split <;> exact h
  | other a =>
    simp only [System.step]
    split <;> exact h
  | cancel token => exact h.beside (beside_setTokens (hp.later_cancel token).cancelled)
  | newToken => exact h.beside ⟨rfl, rfl, hp.later_add.cancelled⟩

theorem Heeding.after (hgood : Good none s) (h : Heeding s) (events : List Event) :
    Heeding (s.after events) := by
  induction events generalizing s with
  | nil => exact h
  | cons e events ih => exact ih (hgood.step e) (h.step hgood e)

theorem heeding_after (events : List Event) : Heeding (({} : System).after events) :=
  Heeding.after good_empty (fun _ hmem => by cases hmem) events

/-- A lane that has ended with success has been told to stop. -/
theorem Heeding.told (h : Heeding s) (hmem : lane ∈ s.lanes)
    (hended : lane.rest = .done (.inr (.ok ()))) : s.Told lane := by
  obtain ⟨heard, hobeys, htold⟩ := h lane hmem
  rw [hended] at hobeys
  exact htold hobeys

end Courier.Serving
