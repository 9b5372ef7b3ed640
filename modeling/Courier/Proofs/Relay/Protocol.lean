import Courier.Outbox.Relay
import Courier.Outbox.Store
import Courier.Proofs.Protocol

/-!
# The protocol of a cycle

What a cycle of a relay asks for and in which order, whatever publisher it has. `Moves` are its steps
from one stage to the next: it begins a transaction and fetches, hands over the rows until one is
refused, marks those that were accepted and commits, or rolls back if there are none. `poll_obeys`
says that a cycle keeps to them, whatever it is answered.
-/

namespace Courier.Relay

/-- How far a cycle has come. -/
inductive Stage where
  | fresh
  | begun (tx : TransactionId)
  /-- Some of the fetched rows have been accepted, others are still to be sent. -/
  | sending (tx : TransactionId) (accepted todo : List OutboxEntry)
  | marked (tx : TransactionId) (accepted : List OutboxEntry)
  | ended

/-- The steps of a cycle. -/
inductive Moves : Stage → (r : Request) → Requests.Answer r → Stage → Prop where
  | begin (tx : TransactionId) : Moves .fresh .begin (.ok tx) (.begun tx)
  | fetch {tx : TransactionId} {limit : Nat} (rows : List OutboxEntry) :
      Moves (.begun tx) (.fetch tx limit) (.ok rows) (.sending tx [] rows)
  /-- The publisher takes the next row. -/
  | accept {tx : TransactionId} {accepted todo : List OutboxEntry} {entry : OutboxEntry} :
      Moves (.sending tx accepted (entry :: todo)) (.send entry) (.ok ())
        (.sending tx (accepted ++ [entry]) todo)
  /-- Behind a row that is refused no other is sent. -/
  | refuse {tx : TransactionId} {accepted todo : List OutboxEntry} {entry : OutboxEntry}
      (cause : String) :
      Moves (.sending tx accepted (entry :: todo)) (.send entry) (.error cause)
        (.sending tx accepted [])
  | mark {tx : TransactionId} {accepted todo : List OutboxEntry} {ids : List Int}
      (h : ids = accepted.map (·.id)) :
      Moves (.sending tx accepted todo) (.mark tx ids) (.ok ()) (.marked tx accepted)
  | commit {tx : TransactionId} {accepted : List OutboxEntry} (result : Except String Unit) :
      Moves (.marked tx accepted) (.commit tx) result .ended
  | rollback {tx : TransactionId} {accepted todo : List OutboxEntry} (h : accepted = []) :
      Moves (.sending tx accepted todo) (.rollback tx) (.ok ()) .ended
  | hook {stage : Stage} (event : Hook) : Moves stage (.hook event) () stage

variable {tx : TransactionId} {accepted todo : List OutboxEntry} {α : Type} {post : α → Stage → Prop}

theorem obeys_hook {stage : Stage} {event : Hook} {next : Unit → Action α}
    (h : (next ()).Obeys Moves post stage) :
    (Program.ask (Request.hook event) next).Obeys Moves post stage := by
  refine ⟨⟨(), _, .hook event⟩, fun a stage' hm => ?_⟩
  cases hm with
  | hook => exact h

/-- Rows are handed over in their order, and the ids are those of the accepted ones. -/
theorem obeys_sendAll (accepted todo : List OutboxEntry) :
    (sendAll todo).Obeys Moves
      (fun ids stage => ∃ more todo', ids = more.map (·.id) ∧
        stage = .sending tx (accepted ++ more) todo')
      (.sending tx accepted todo) := by
  induction todo generalizing accepted with
  | nil => exact ⟨[], [], rfl, by rw [List.append_nil]⟩
  | cons entry rest ih =>
    simp only [sendAll, send, tell, Program.request, Program.bind_eq, Program.ask_bind,
      Program.done_bind]
    refine ⟨⟨_, _, .accept⟩, fun result stage hm => ?_⟩
    cases hm with
    | refuse cause => exact obeys_hook ⟨[], [], rfl, by rw [List.append_nil]⟩
    | accept =>
      refine obeys_hook ?_
      refine ((ih (accepted ++ [entry])).mono fun ids stage hstage => ?_).bind
      obtain ⟨more, todo', rfl, rfl⟩ := hstage
      exact ⟨entry :: more, todo', rfl, by rw [List.append_assoc, List.singleton_append]⟩

/-- A transaction in which nothing was accepted is rolled back. -/
theorem obeys_abort (result : α) :
    (abort tx result).Obeys Moves (fun _ stage => stage = .ended) (.sending tx [] todo) := by
  refine ⟨⟨_, _, .rollback rfl⟩, fun a stage hm => ?_⟩
  cases hm with
  | rollback => rfl

/-- A cycle keeps to the protocol, whatever it is answered. -/
theorem poll_obeys (batchSize : Nat) :
    (poll batchSize).Obeys Moves (fun _ stage => stage = .ended) .fresh := by
  simp only [poll, begin, fetch, mark, commit, tell, Program.request, Program.bind_eq,
    Program.ask_bind, Program.done_bind]
  refine ⟨⟨_, _, .begin 0⟩, fun begun stage hm => ?_⟩
  cases hm with
  | begin tx =>
    refine ⟨⟨_, _, .fetch []⟩, fun fetched stage hm => ?_⟩
    cases hm with
    | fetch rows =>
      cases rows with
      | nil => exact obeys_abort _
      | cons row rest =>
        refine obeys_hook ?_
        refine ((obeys_sendAll [] (row :: rest)).mono fun ids stage hstage => ?_).bind
        obtain ⟨more, todo', rfl, rfl⟩ := hstage
        cases more with
        | nil => exact obeys_abort _
        | cons first more =>
          refine ⟨⟨_, _, .mark rfl⟩, fun marked stage hm => ?_⟩
          cases hm with
          | mark =>
            refine ⟨⟨_, _, .commit (.ok ())⟩, fun committed stage hm => ?_⟩
            cases hm with
            | commit =>
              cases committed with
              | error cause => rfl
              | ok => exact obeys_hook rfl

end Courier.Relay
