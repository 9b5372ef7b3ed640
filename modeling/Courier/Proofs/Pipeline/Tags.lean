import Courier.Proofs.Memory.Tags
import Courier.Proofs.Outbox.Stored
import Courier.Proofs.Pipeline.Consistency

/-!
# From the tags of an event to the queues

An event is written to the outbox, committed, and sent by a cycle of some relay to an exchange that
routes by headers. `routedByTags_after` says which queues get it, whatever else writers, cycles and
brokers do before, in between and afterwards: one that is bound to the exchange once, by a binding that
asks for tags, gets exactly one copy of each message that is sent for the event if the event's tags are
as the binding wants them, and none if they are not.

The row of the event carries its tags unchanged through the outbox (`Outbox.Faithful`), the forwarder
makes them the headers of the message, and the binding compares them one by one
(`headersFit_tagArguments`). A cycle touches the queues only where its broker accepts a row
(`Answered`), so nothing else that a send takes makes a further copy.
-/

namespace Courier.Pipeline

open Relay (Stage)

variable {s s' : System} {stages : Nat → Stage} {i : Nat} {p p' : Poll} {e row : OutboxEntry}

/-! ## What a request of a cycle does to the queues -/

/-- With this step the broker of a cycle has accepted a row from it: the send of the row succeeds. -/
def Accepts (s s' : System) (i : Nat) (row : OutboxEntry) : Prop :=
  ∃ p p', s.polls[i]? = some p ∧ s'.polls[i]? = some p' ∧ p'.published = p.published ++ [row]

/-- What the answer to a cycle has done to the brokers. -/
inductive Answered (s s' : System) (i : Nat) (p : Poll) : Prop where
  /-- The queues are as they were. -/
  | aside (p' : Poll) (hp' : s'.polls[i]? = some p') (hpub : p'.published = p.published)
      (hready : ∀ b queue, (s'.brokers b).ready queue = (s.brokers b).ready queue)
  /-- The broker has accepted a committed row. -/
  | sent (p' : Poll) (row : OutboxEntry) (targets : List String) (hp' : s'.polls[i]? = some p')
      (hpub : p'.published = p.published ++ [row])
      (hrow : row ∈ s.outbox.rows ∧ row.published = false) (hnew : p.hasPublished row.id = false)
      (hroute : (s.brokers p.broker).route (p.forwarder.publishing row).destination = .ok targets)
      (hbroker : s'.brokers p.broker =
        (s.brokers p.broker).accept (p.forwarder.publishing row) targets)

theorem ready_setBroker {broker : Nat} {m : Memory}
    (hm : ∀ queue, m.ready queue = (s.brokers broker).ready queue) (b : Nat) (queue : String) :
    ((s.setBroker broker m).brokers b).ready queue = (s.brokers b).ready queue := by
  simp only [System.setBroker]
  split
  · rename_i hb
    rw [hb, hm]
  · rfl

/-- The rows that are still to be sent are others than those that have been accepted. -/
theorem Holding.hasPublished_eq_false {o : Outbox} {locked : List Int} {todo : List OutboxEntry}
    (h : Holding o locked (p.published ++ row :: todo)) : p.hasPublished row.id = false := by
  have hnodup := h.nodup
  rw [List.map_append, List.nodup_append] at hnodup
  refine Bool.eq_false_iff.mpr fun hid => ?_
  obtain ⟨row', hrow', hsame⟩ := List.any_eq_true.mp hid
  exact hnodup.2.2 _ (List.mem_map_of_mem hrow') _ List.mem_cons_self (beq_iff_eq.mp hsame)

theorem Consistent.answered (h : Consistent s stages) (hp : s.polls[i]? = some p)
    (pool : (r : Pooling.Request) → Requests.Answer r) : Answered s (s.advance i pool) i p := by
  have hset : ∀ p', (s.polls.set i p')[i]? = some p' :=
    fun p' => List.getElem?_set_self (List.getElem?_eq_some_iff.mp hp).1
  rcases h.advance_cases i pool with hs | ⟨p₁, rest, stage', hp₁, ha, -⟩
  · rw [hs]
    exact .aside p hp rfl fun _ _ => rfl
  · obtain rfl := Option.some.inj (hp.symm.trans hp₁)
    have hat := (h.tracks i p hp).at_stage
    generalize s.advance i pool = s', stages i = stage at ha hat
    cases ha with
    | accept hroute =>
      obtain ⟨-, rfl, -, locked, -, hold⟩ := hat
      obtain ⟨hmem, hpub, -⟩ := hold.unpublished _ (List.mem_append_right _ List.mem_cons_self)
      exact .sent _ _ _ (hset _) rfl ⟨hmem, hpub⟩ hold.hasPublished_eq_false hroute
        (by simp [System.setBroker])
    | refuse n => exact .aside _ (hset _) rfl (ready_setBroker fun _ => rfl)
    | talk hm => exact .aside _ (hset _) rfl (ready_setBroker hm.ready)
    | _ => exact .aside _ (hset _) rfl fun _ _ => rfl

/-- A row that the broker accepts is committed and not yet published, and has not been accepted from
this cycle before. -/
theorem Consistent.accepted (h : Consistent s stages) (hp : s.polls[i]? = some p)
    {pool : (r : Pooling.Request) → Requests.Answer r} (ha : Accepts s (s.advance i pool) i row) :
    (row ∈ s.outbox.rows ∧ row.published = false) ∧ p.hasPublished row.id = false ∧
      ∃ targets, (s.brokers p.broker).route (p.forwarder.publishing row).destination = .ok targets ∧
        (s.advance i pool).brokers p.broker =
          (s.brokers p.broker).accept (p.forwarder.publishing row) targets := by
  obtain ⟨p₀, p₁, hp₀, hp₁, hone⟩ := ha
  obtain rfl := Option.some.inj (hp.symm.trans hp₀)
  cases h.answered hp pool with
  | aside p' hp' hpub =>
    obtain rfl := Option.some.inj (hp₁.symm.trans hp')
    exact absurd (hpub.symm.trans hone) (by simp)
  | sent p' row' targets hp' hpub hrow hnew hroute hbroker =>
    obtain rfl := Option.some.inj (hp₁.symm.trans hp')
    obtain rfl : row' = row := by simpa using hpub.symm.trans hone
    exact ⟨hrow, hnew, targets, hroute, hbroker⟩

/-- The queues are as they were if no row is accepted. -/
theorem Consistent.ready_of_none_accepted (h : Consistent s stages)
    {pool : (r : Pooling.Request) → Requests.Answer r}
    (hnone : ∀ row, ¬Accepts s (s.advance i pool) i row) (b : Nat) (queue : String) :
    ((s.advance i pool).brokers b).ready queue = (s.brokers b).ready queue := by
  cases hp : s.polls[i]? with
  | none => rw [System.advance, hp]
  | some p =>
    cases h.answered hp pool with
    | aside _ _ _ hready => exact hready b queue
    | sent p' row _ hp' hpub => exact absurd ⟨p, p', hp, hp', hpub⟩ (hnone row)

/-! ## The row of the event -/

theorem outbox_write {op : Outbox.Operation} (hmay : s.mayWrite op = true) :
    (s.write op).outbox = s.outbox.step op := by
  simp only [System.write, hmay, if_true]

/-- An event leaves the outbox alone, or is one operation on it. -/
theorem Consistent.step_outbox (h : Consistent s stages) (event : Event) :
    (s.step event).outbox = s.outbox ∨ ∃ op, (s.step event).outbox = s.outbox.step op := by
  cases event with
  | write op =>
    by_cases hmay : s.mayWrite op = true
    · exact .inr ⟨op, outbox_write hmay⟩
    · exact .inl (by simp only [System.step, System.write, hmay, Bool.false_eq_true, if_false])
  | poll forwarder broker cancel batchSize => exact .inl rfl
  | broker broker activity => exact .inl rfl
  | advance i pool =>
    show (s.advance i pool).outbox = _ ∨ ∃ op, (s.advance i pool).outbox = _
    rcases h.advance_cases i pool with hs | ⟨p, rest, stage', -, ha, -⟩
    · exact .inl (by rw [hs])
    · generalize s.advance i pool = s', stages i = stage at ha
      cases ha with
      | begin => exact .inr ⟨.begin, rfl⟩
      | fetch limit => exact .inr ⟨.fetch _ limit, rfl⟩
      | mark => exact .inr ⟨.mark _ _, rfl⟩
      | commit => exact .inr ⟨.commit _, rfl⟩
      | commitFailing => exact .inr ⟨.commit _, rfl⟩
      | rollback => exact .inr ⟨.rollback _, rfl⟩
      | accept => exact .inl rfl
      | refuse => exact .inl rfl
      | talk => exact .inl rfl

/-- Nothing that happens later makes another row of it. -/
theorem Consistent.faithful_after (h : Consistent s stages) (hf : s.outbox.Faithful e)
    (events : List Event) :
    ∃ stages, Consistent (s.after events) stages ∧ (s.after events).outbox.Faithful e := by
  refine h.after (fun s => s.outbox.Faithful e) hf (fun s stages event hs hf => ?_) events
  show (s.step event).outbox.Faithful e
  rcases hs.step_outbox event with heq | ⟨op, heq⟩
  · exact heq ▸ hf
  · exact heq ▸ hf.step hs.wellFormed op

/-! ## Routing by tags -/

/-- The broker accepts a row from a cycle that sends to an exchange that routes by headers. -/
structure SentByHeaders (s s' : System) (i : Nat) (p : Poll) (row : OutboxEntry) : Prop where
  poll : s.polls[i]? = some p
  accepts : Accepts s s' i row
  named : p.forwarder.exchange ≠ ""
  kind : (s.brokers p.broker).exchangeKind p.forwarder.exchange = some .headers

/-- How the row of an event is sent when a cycle of the system is answered next. -/
structure RoutedByTags (s : System) (event : Courier.Event) (e : OutboxEntry) : Prop where
  /-- What a broker accepts from a cycle is a committed row. -/
  committed : ∀ i pool row, Accepts s (s.advance i pool) i row → row ∈ s.outbox.rows
  /-- No cycle has a row accepted twice. -/
  once : ∀ i p pool row, s.polls[i]? = some p → Accepts s (s.advance i pool) i row →
    p.hasPublished row.id = false
  /-- Of all that a cycle does, only this changes what is in a queue. -/
  aside : ∀ i pool, (∀ row, ¬Accepts s (s.advance i pool) i row) →
    ∀ b queue, ((s.advance i pool).brokers b).ready queue = (s.brokers b).ready queue
  /-- A row that is accepted is the one that was stored for the event, if it has its id. -/
  same : ∀ i pool row, Accepts s (s.advance i pool) i row → row.id = e.id → row = e
  routed : ∀ i p pool, SentByHeaders s (s.advance i pool) i p e → ∀ queue wanted mode,
    (s.brokers p.broker).BoundOnce queue p.forwarder.exchange (tagArguments wanted mode) →
      Memory.Gets (s.brokers p.broker) ((s.advance i pool).brokers p.broker) queue
        (p.forwarder.publishing e) (TagsFit wanted mode event.tags)
  /-- A binding that asks for no tags takes every event, or, with `any`, none. -/
  unasked : ∀ i p pool, SentByHeaders s (s.advance i pool) i p e → ∀ queue mode,
    (s.brokers p.broker).BoundOnce queue p.forwarder.exchange (tagArguments [] mode) →
      Memory.Gets (s.brokers p.broker) ((s.advance i pool).brokers p.broker) queue
        (p.forwarder.publishing e) (mode ≠ some (.text "any"))

/-- A row with the tags of the event as headers is sent to the queues that the tags fit. -/
theorem Consistent.gets (h : Consistent s stages) {tags : List String}
    (htags : e.headers = Json.Object.ofPairs (tagPairs tags))
    {pool : (r : Pooling.Request) → Requests.Answer r}
    (hsent : SentByHeaders s (s.advance i pool) i p e) {queue : String} {wanted : List String}
    {mode : Option Json}
    (hbound : (s.brokers p.broker).BoundOnce queue p.forwarder.exchange (tagArguments wanted mode)) :
    Memory.Gets (s.brokers p.broker) ((s.advance i pool).brokers p.broker) queue
      (p.forwarder.publishing e) (TagsFit wanted mode tags) := by
  obtain ⟨-, -, targets, hroute, hbroker⟩ := h.accepted hsent.poll hsent.accepts
  have hfits : (s.brokers p.broker).BoundFor (p.forwarder.publishing e).destination .headers queue ↔
      TagsFit wanted mode tags := by
    rw [Memory.BoundOnce.boundFor_iff hbound, ← headersFit_tagArguments, ← htags]
    rfl
  rw [hbroker, ← hfits]
  exact Memory.gets_accept hroute hsent.named hsent.kind hbound.there

theorem Consistent.routedByTags (h : Consistent s stages) {event : Courier.Event}
    (htags : e.headers = Json.Object.ofPairs (tagPairs event.tags))
    (hf : s.outbox.Faithful e) : RoutedByTags s event e where
  committed i pool row ha := by
    have ⟨p, _, hp, _⟩ := ha
    exact (h.accepted hp ha).1.1
  once i p pool row hp ha := (h.accepted hp ha).2.1
  aside i pool hnone := h.ready_of_none_accepted hnone
  same i pool row ha hid := by
    have ⟨p, _, hp, _⟩ := ha
    obtain ⟨⟨hrow, hpub⟩, -⟩ := h.accepted hp ha
    rcases hf.same row (List.mem_append_left _ hrow) hid with heq | rfl
    · exact heq
    · exact absurd hpub (by simp)
  routed i p pool hsent queue wanted mode hbound := h.gets htags hsent hbound
  unasked i p pool hsent queue mode hbound :=
    propext (tagsFit_nil event.tags) ▸ h.gets htags hsent hbound

/-- An event is written to the outbox in a transaction of a writer. Whenever the system sends its row
afterwards, the tags of the event and those that a binding asks for decide who gets it. -/
theorem routedByTags_after (brokers : Nat → Memory) (before later : List Event) {tx : TransactionId}
    {now : Int} {event : Courier.Event} {e : OutboxEntry}
    (hmay : (({ brokers } : System).after before).mayWrite (.emit tx now event) = true)
    (hstores : (({ brokers } : System).after before).outbox.Stores tx now event e) :
    RoutedByTags (({ brokers } : System).after (before ++ .write (.emit tx now event) :: later))
      event e := by
  obtain ⟨stages, h, -⟩ := (consistent_start brokers).after (fun _ => True) trivial
    (fun _ _ _ _ _ => trivial) before
  have hrun : ({ brokers } : System).after (before ++ .write (.emit tx now event) :: later) =
      ((({ brokers } : System).after before).write (.emit tx now event)).after later :=
    List.foldl_append
  rw [hrun]
  generalize ({ brokers } : System).after before = s at *
  obtain ⟨t, entry, -, hevent, rfl⟩ := hstores.exists_entry
  have hf : (s.write (.emit tx now event)).outbox.Faithful (entry.row (s.outbox.lastId + 1)) :=
    outbox_write hmay ▸ hstores.faithful h.wellFormed
  obtain ⟨stages', h', hf'⟩ := (h.write (.emit tx now event)).faithful_after hf later
  exact h'.routedByTags (NewEntry.of_ofEvent hevent).2.2.1 hf'

/-- A pool that lends a publisher that has no channel yet, and keeps none. -/
def lending : (r : Pooling.Request) → Requests.Answer r
  | .acquire .. => .ok { confirmed := true }
  | .putBack .. => none
  | .session r => (Memory.answer r {}).1
  | .drain _ => []
  | .shrink _ => ()
  | .detach _ => ()

/-- A payment, with a tag that is given twice, an empty one, and one that is named like a setting. -/
def payment : Courier.Event where
  name := "paid"
  tags := ["eu", "", "eu", "x-match"]
  payload := .ok .null

def paymentRow : OutboxEntry where
  id := 1
  eventName := "paid"
  payload := .null
  headers := Json.Object.ofPairs (tagPairs payment.tags)
  createdAt := 7
  published := false

/-- A queue for two regions, and a transaction. -/
def regions : List Event :=
  [.broker 0 (.request .openChannel),
    .broker 0 (.request (.declareExchange 0 "events" .headers true)),
    .broker 0 (.request (.declareQueue 0 { name := "west" })),
    .broker 0 (.request (.bindQueue 0 "west" "events" ""
      (tagArguments ["us", "eu"] (some (.text "any"))))),
    .write .begin]

/-- The payment is written and committed, and a cycle gets to where it publishes its row. -/
def untilPublish : System :=
  ({ brokers := fun _ => {} } : System).after (regions ++ .write (.emit 0 7 payment) ::
    ([.write (.commit 0), .poll {} 0 0 10] ++ List.replicate 5 (.advance 0 lending)))

theorem sentByHeaders_payment :
    ∃ p, SentByHeaders untilPublish (untilPublish.advance 0 lending) 0 p paymentRow ∧
      p.broker = 0 ∧ (untilPublish.brokers p.broker).BoundOnce "west" p.forwarder.exchange
        (tagArguments ["us", "eu"] (some (.text "any"))) :=
  ⟨_, ⟨by rfl, ⟨_, _, by rfl, by rfl, by rfl⟩, by decide, by rfl⟩, by rfl, by rfl, _, by rfl⟩

theorem routedByTags_after_payment :
    (({ brokers := fun _ => {} } : System).after regions).mayWrite (.emit 0 7 payment) = true ∧
      (({ brokers := fun _ => {} } : System).after regions).outbox.Stores 0 7 payment paymentRow ∧
      RoutedByTags untilPublish payment paymentRow ∧
      ∃ message, ((untilPublish.advance 0 lending).brokers 0).ready "west" =
        (untilPublish.brokers 0).ready "west" ++ [message] := by
  have hmay : (({ brokers := fun _ => {} } : System).after regions).mayWrite
      (.emit 0 7 payment) = true := by rfl
  have hstores : (({ brokers := fun _ => {} } : System).after regions).outbox.Stores 0 7 payment
      paymentRow := ⟨_, _, by rfl, by rfl, by rfl⟩
  have hrouted : RoutedByTags untilPublish payment paymentRow :=
    routedByTags_after _ regions _ hmay hstores
  have hfit : TagsFit ["us", "eu"] (some (.text "any")) payment.tags :=
    ⟨fun _ => ⟨"eu", by decide, by decide⟩, fun h => absurd rfl h⟩
  obtain ⟨p, hsent, hbroker, hbound⟩ := sentByHeaders_payment
  have hgets := hrouted.routed 0 p lending hsent "west" _ _ hbound
  rw [hbroker] at hgets
  exact ⟨hmay, hstores, hrouted, _, hgets.one.mp hfit⟩

end Courier.Pipeline
