import Courier.Outbox.Forwarder
import Courier.Proofs.Publisher.Sending
import Courier.Proofs.Relay.Protocol
import Courier.Service

/-!
# A relay cycle with a forwarder

A relay whose rows are sent by a forwarder is one program. `Pipeline.cycle` is a cycle of it, with
every request to the pools and the connection under the row that it is made for; without these labels
it is the program that a service runs (`unlabelled_cycle`).

`Moves` is the protocol of a cycle: the order in which it begins a transaction, fetches, has rows
accepted or refused, marks what was accepted, and commits, or rolls back if nothing was. A cycle keeps
to it, whatever it is answered (`cycle_obeys`), since its relay keeps to the protocol of one with any
publisher (`Relay.poll_obeys`), and each request of the relay is carried out by steps of `Moves`
(`obeys_carryOut`).
-/

namespace Courier

namespace Pipeline

/-- A request of a cycle. -/
inductive Request where
  | storage (r : Relay.Request)
  /-- A request that is made to send a row. -/
  | forward (entry : OutboxEntry) (r : Pooling.Request)

instance : Requests Request where
  Answer
    | .storage r => Requests.Answer r
    | .forward _ r => Requests.Answer r

/-- Send a row. -/
def forwarding (forwarder : Forwarder) (cancel : TokenId) (entry : OutboxEntry) :
    Program Request (Except String Unit) :=
  (forwarder.send cancel entry).interpret fun r => Program.ask (Request.forward entry r) Program.done

/-- Carry out a request of a relay. -/
def carryOut (forwarder : Forwarder) (cancel : TokenId) :
    (r : Relay.Request) → Program Request (Requests.Answer r)
  | .send entry => forwarding forwarder cancel entry
  | r => Program.ask (Request.storage r) Program.done

/-- One cycle of a relay that sends its rows by a forwarder. -/
def cycle (forwarder : Forwarder) (cancel : TokenId) (batchSize : Nat) :
    Program Request (Except RelayError Nat) :=
  (Relay.poll batchSize).interpret (carryOut forwarder cancel)

/-- What a service is asked for by a request. -/
def unlabelled (cancel : TokenId) : (r : Request) → Service.Action (Requests.Answer r)
  | .storage r => Program.ask (Service.Request.relay r cancel) Program.done
  | .forward _ r => Program.ask (Service.Request.pooling r) Program.done

/-- But for the labels, a cycle is what a service runs. -/
theorem unlabelled_cycle (forwarder : Forwarder) (cancel : TokenId) (batchSize : Nat) :
    (cycle forwarder cancel batchSize).interpret (unlabelled cancel) =
      Service.relaying cancel (fun entry => Service.pooling (forwarder.send cancel entry))
        (Relay.poll batchSize) := by
  rw [cycle, Program.interpret_interpret, Service.relaying]
  congr 1
  funext r
  cases r <;> try rfl
  rename_i entry
  exact Program.interpret_interpret _ _ _

/-! ## The protocol -/

open Relay (Stage)

/-- The stage after the broker has answered for the next row: behind one that was refused no other is
sent. -/
def sent (tx : TransactionId) (accepted : List OutboxEntry) (entry : OutboxEntry)
    (todo : List OutboxEntry) : Except TransportError Unit → Stage
  | .ok () => .sending tx (accepted ++ [entry]) todo
  | .error _ => .sending tx accepted []

/-- The steps of a cycle. -/
inductive Moves (forwarder : Forwarder) :
    Stage → (r : Request) → Requests.Answer r → Stage → Prop where
  | begin (tx : TransactionId) : Moves forwarder .fresh (.storage .begin) (.ok tx) (.begun tx)
  | fetch {tx : TransactionId} {limit : Nat} (rows : List OutboxEntry) :
      Moves forwarder (.begun tx) (.storage (.fetch tx limit)) (.ok rows) (.sending tx [] rows)
  | publish {tx : TransactionId} {accepted todo : List OutboxEntry} {entry : OutboxEntry}
      {channel : ChannelId} {publishing : Publishing} {options : PublishOptions}
      (h : publishing = forwarder.publishing entry) (result : Except TransportError Unit) :
      Moves forwarder (.sending tx accepted (entry :: todo))
        (.forward entry (.session (.publish channel publishing options))) result
        (sent tx accepted entry todo result)
  /-- All else that sending a row takes. -/
  | aside {tx : TransactionId} {accepted todo : List OutboxEntry} {entry : OutboxEntry}
      {r : Pooling.Request} (h : r.isAside = true) (a : Requests.Answer r) :
      Moves forwarder (.sending tx accepted todo) (.forward entry r) a (.sending tx accepted todo)
  | mark {tx : TransactionId} {accepted todo : List OutboxEntry} {ids : List Int}
      (h : ids = accepted.map (·.id)) :
      Moves forwarder (.sending tx accepted todo) (.storage (.mark tx ids)) (.ok ())
        (.marked tx accepted)
  | commit {tx : TransactionId} {accepted : List OutboxEntry} (result : Except String Unit) :
      Moves forwarder (.marked tx accepted) (.storage (.commit tx)) result .ended
  | rollback {tx : TransactionId} {accepted todo : List OutboxEntry} (h : accepted = []) :
      Moves forwarder (.sending tx accepted todo) (.storage (.rollback tx)) (.ok ()) .ended
  | hook {stage : Stage} (event : Relay.Hook) :
      Moves forwarder stage (.storage (.hook event)) () stage

variable {forwarder : Forwarder} {cancel : TokenId} {tx : TransactionId}
  {accepted todo : List OutboxEntry} {entry : OutboxEntry}

/-! ## Sending a row -/

open Pooling (Sending Sends)

/-- The stage of a cycle by how far the publish of the next row has come. -/
def during (tx : TransactionId) (accepted : List OutboxEntry) (entry : OutboxEntry)
    (todo : List OutboxEntry) : Sending → Stage
  | .lent (some result) => sent tx accepted entry todo result
  | _ => .sending tx accepted (entry :: todo)

theorem during_eq_sending (tx : TransactionId) (accepted : List OutboxEntry) (entry : OutboxEntry)
    (todo : List OutboxEntry) (g : Sending) :
    ∃ accepted' todo', during tx accepted entry todo g = .sending tx accepted' todo' := by
  match g with
  | .fresh | .refused _ | .lent none | .lent (some (.ok ())) | .lent (some (.error _)) =>
    exact ⟨_, _, rfl⟩

/-- Whatever a publish may ask next, a cycle may ask to send its row. -/
theorem obeys_sends {g : Sending} {r : Pooling.Request}
    (h : ∃ a g', Sends (forwarder.publishing entry) g r a g') :
    (Program.ask (Request.forward entry r) Program.done).Obeys (Moves forwarder)
      (fun a stage => ∃ g', Sends (forwarder.publishing entry) g r a g' ∧
        stage = during tx accepted entry todo g')
      (during tx accepted entry todo g) := by
  obtain ⟨a, g', hm⟩ := h
  cases hm with
  | publish =>
    refine ⟨⟨_, _, .publish rfl (.ok ())⟩, fun result stage hm => ?_⟩
    cases hm with
    | publish => exact ⟨_, .publish result, rfl⟩
    | aside h => cases h
  | lent _ | refused _ =>
    refine ⟨⟨_, _, .aside rfl (Except.error .cancelled)⟩, fun acquired stage hm => ?_⟩
    cases hm with
    | aside =>
      cases acquired with
      | ok publisher => exact ⟨_, .lent publisher, rfl⟩
      | error e => exact ⟨_, .refused e, rfl⟩
  | aside h hr =>
    obtain ⟨accepted', todo', hat⟩ := during_eq_sending tx accepted entry todo g
    rw [hat]
    refine ⟨⟨a, _, .aside h a⟩, fun a stage hm => ?_⟩
    cases hm with
    | aside => exact ⟨g, .aside h hr a, hat.symm⟩
    | publish => cases h

/-- A row is sent, or it is refused. -/
theorem obeys_forwarding (forwarder : Forwarder) (cancel : TokenId) :
    (forwarding forwarder cancel entry).Obeys (Moves forwarder)
      (fun result stage => match result with
        | .ok () => stage = .sending tx (accepted ++ [entry]) todo
        | .error _ => ∃ todo', stage = .sending tx accepted todo')
      (.sending tx accepted (entry :: todo)) := by
  simp only [forwarding, Forwarder.send, Program.bind_eq, Program.interpret_bind]
  refine (((Pooling.publish_sends .atLeastOnce cancel (forwarder.publishing entry)).interpret
    (fun g stage => stage = during tx accepted entry todo g) rfl
    fun r g stage hstage h => hstage ▸ obeys_sends h).mono fun result stage hstage => ?_).bind
  obtain ⟨g, hreturned, rfl⟩ := hstage
  cases result with
  | ok =>
    cases hreturned
    rfl
  | error e =>
    obtain rfl | ⟨cause, -, rfl | rfl⟩ := hreturned <;> exact ⟨_, rfl⟩

/-! ## A whole cycle -/

/-- Where a cycle stands when its relay is at a stage: behind a row that was refused, others may be
left. -/
def At : Stage → Stage → Prop
  | .sending tx accepted [], stand => ∃ todo, stand = .sending tx accepted todo
  | stage, stand => stand = stage

theorem at_self (stage : Stage) : At stage stage := by
  unfold At
  split
  · exact ⟨[], rfl⟩
  · rfl

theorem At.sending {stand : Stage} (h : At (.sending tx accepted todo) stand) :
    ∃ todo', stand = .sending tx accepted todo' := by
  cases todo with
  | nil => exact h
  | cons entry todo => exact ⟨entry :: todo, h⟩

/-- A request of the relay is carried out by steps of the cycle. -/
theorem obeys_carryOut (forwarder : Forwarder) (cancel : TokenId) {r : Relay.Request}
    {stage stand : Stage} (hat : At stage stand) (h : ∃ a stage', Relay.Moves stage r a stage') :
    (carryOut forwarder cancel r).Obeys (Moves forwarder)
      (fun a stand' => ∃ stage', Relay.Moves stage r a stage' ∧ At stage' stand') stand := by
  have forwarded : ∀ {tx accepted todo entry}, At (.sending tx accepted (entry :: todo)) stand →
      (forwarding forwarder cancel entry).Obeys (Moves forwarder)
        (fun a stand' => ∃ stage', Relay.Moves (.sending tx accepted (entry :: todo)) (.send entry) a
          stage' ∧ At stage' stand') stand := by
    rintro tx accepted todo entry rfl
    refine (obeys_forwarding forwarder cancel).mono fun result stand' hstand => ?_
    cases result with
    | ok =>
      subst hstand
      exact ⟨_, .accept, at_self _⟩
    | error cause => exact ⟨_, .refuse cause, hstand⟩
  obtain ⟨a, stage', hm⟩ := h
  cases hm with
  | begin tx =>
    obtain rfl := hat
    refine ⟨⟨_, _, .begin tx⟩, fun a stand' hm => ?_⟩
    cases hm with
    | begin tx => exact ⟨_, .begin tx, rfl⟩
  | fetch rows =>
    obtain rfl := hat
    refine ⟨⟨_, _, .fetch rows⟩, fun a stand' hm => ?_⟩
    cases hm with
    | fetch rows => exact ⟨_, .fetch rows, at_self _⟩
  | accept => exact forwarded hat
  | refuse cause => exact forwarded hat
  | mark hids =>
    obtain ⟨todo', rfl⟩ := hat.sending
    refine ⟨⟨_, _, .mark hids⟩, fun a stand' hm => ?_⟩
    cases hm with
    | mark => exact ⟨_, .mark hids, rfl⟩
  | commit =>
    obtain rfl := hat
    refine ⟨⟨_, _, .commit (.ok ())⟩, fun result stand' hm => ?_⟩
    cases hm with
    | commit => exact ⟨_, .commit result, rfl⟩
  | rollback hnone =>
    obtain ⟨todo', rfl⟩ := hat.sending
    refine ⟨⟨_, _, .rollback hnone⟩, fun a stand' hm => ?_⟩
    cases hm with
    | rollback => exact ⟨_, .rollback hnone, rfl⟩
  | hook event =>
    refine ⟨⟨(), _, .hook event⟩, fun a stand' hm => ?_⟩
    cases hm with
    | hook => exact ⟨_, .hook event, hat⟩

/-- A cycle keeps to the protocol, whatever it is answered. -/
theorem cycle_obeys (forwarder : Forwarder) (cancel : TokenId) (batchSize : Nat) :
    (cycle forwarder cancel batchSize).Obeys (Moves forwarder) (fun _ stage => stage = .ended)
      .fresh := by
  refine ((Relay.poll_obeys batchSize).interpret At (at_self .fresh) fun r stage stand hat h =>
    obeys_carryOut forwarder cancel hat h).mono fun result stand hstand => ?_
  obtain ⟨stage, rfl, hat⟩ := hstand
  exact hat

end Pipeline

end Courier
