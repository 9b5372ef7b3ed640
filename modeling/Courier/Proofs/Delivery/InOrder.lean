import Courier.Proofs.Delivery.Relaying

/-!
# Delivered in order

One relay sends the rows of writers that do not overlap to a queue that one lane reads. Whatever else
happens, and whichever publishes, commits and handlers fail, the handler gets to see the rows in the
order of their ids, again and again perhaps, but never one before a smaller one that is committed
(`delivered_inOrder`).

The reason is that all that has been in the queue is in order (`Relayed`): what was handled, then what
was taken, then what is ready. The relay appends to it, the lane moves along it and puts back what it
has handled, and no other event changes it (`Kept.step`).
-/

namespace Courier.Delivery

open Pipeline (Consistent Accounted Logged moved)
open Relay (Stage)

variable {relay : Forwarder} {consumer : Consumer} {s s' : System} {stages stages' : Nat → Stage}

/-! ## What every event keeps -/

/-- The pipeline as far as cycles and logs are concerned. -/
structure Sound (s : Pipeline.System) (stages : Nat → Stage) : Prop where
  consistent : Consistent s stages
  accounted : Accounted s
  logged : Logged s

structure Kept (relay : Forwarder) (consumer : Consumer) (s : System) (stages : Nat → Stage) :
    Prop where
  sound : Sound s.pipeline stages
  relayed : Relayed relay consumer.config.queue s.pipeline stages (s.trail consumer.config.queue)
  /-- There is one lane at most, and it reads the queue. -/
  reader : s.readers = [] ∨
    ∃ r g, s.readers = [r] ∧ r.Tracks s.broker s.handled consumer.config.queue g

theorem Sound.step {s : Pipeline.System} (h : Sound s stages) {e : Pipeline.Event}
    (hc : Consistent (s.step e) stages') : Sound (s.step e) stages' :=
  ⟨hc, h.accounted.step h.consistent e, h.logged.step h.consistent e⟩

theorem Sound.befall {s : Pipeline.System} (h : Sound s stages) (broker : Nat)
    (activity : Memory.Activity) : Sound (s.step (.broker broker activity)) stages :=
  h.step { h.consistent with }

/-- The lane stays where it is if the broker keeps what it has. -/
theorem Kept.reader_keeps (h : Kept relay consumer s stages) (hr : s'.readers = s.readers)
    (hh : s'.handled = s.handled) (hk : s.broker.Keeps s'.broker) :
    s'.readers = [] ∨
      ∃ r g, s'.readers = [r] ∧ r.Tracks s'.broker s'.handled consumer.config.queue g := by
  rw [hr, hh]
  exact h.reader.imp_right fun ⟨r, g, hone, ht⟩ => ⟨r, g, hone, ht.keeps hk⟩

/-! ## The lane -/

/-- A lane goes on. -/
theorem Kept.passed (h : Kept relay consumer s stages) (hp : Passed consumer.config.queue s s') :
    Kept relay consumer s' stages := by
  obtain ⟨hpipeline, ⟨r, g, hr, ht⟩, front, back, htrail, hrepeats⟩ := hp
  have hreader : s'.readers = [] ∨
      ∃ r g, s'.readers = [r] ∧ r.Tracks s'.broker s'.handled consumer.config.queue g :=
    .inr ⟨r, g, hr, ht⟩
  rcases hpipeline with e | ⟨activity, e⟩
  · refine ⟨e ▸ h.sound, ?_, hreader⟩
    rw [e, htrail]
    exact h.relayed.repeats hrepeats
  · refine ⟨e ▸ h.sound.befall 0 activity, ?_, hreader⟩
    rw [e, htrail]
    exact (h.relayed.keeps (keeps_setBroker _ (Memory.keeps_act _ activity))).repeats hrepeats

theorem Kept.read (h : Kept relay consumer s stages) (reader : Nat)
    (others : (r : Consuming.Request) → Requests.Answer r) :
    Kept relay consumer (s.read reader others) stages := by
  have idle : s.readers[reader]? = none → s.read reader others = s := fun hnone => by
    rw [System.read, hnone]
  rcases h.reader with hr | ⟨r, g, hr, ht⟩
  · rw [idle (by rw [hr]; rfl)]
    exact h
  · cases reader with
    | zero => exact h.passed (read_passed hr ht others)
    | succ n =>
      rw [idle (by rw [hr]; rfl)]
      exact h

/-- The consumer starts its lane when there is none at work. -/
theorem Kept.run (h : Kept relay consumer s stages) (hlanes : consumer.config.concurrency ≤ 1)
    (hended : s.readers.all (·.ended) = true) (stops : List TokenId) :
    Kept relay consumer { s with
      readers := List.replicate consumer.config.lanes { rest := Lane.start consumer stops } }
      stages := by
  have hone : consumer.config.lanes = 1 := Nat.max_eq_right hlanes
  have htaken : s.taken = [] := by
    rcases h.reader with hr | ⟨r, g, hr, ht⟩
    · rw [System.taken, hr, List.filterMap_nil]
    · have hrended : r.ended = true := List.all_eq_true.mp hended r (by rw [hr]; simp)
      simp [System.taken, hr, ht.taken_of_ended hrended]
  have hreaders : List.replicate consumer.config.lanes ({ rest := Lane.start consumer stops } : Reader) =
      [{ rest := Lane.start consumer stops }] := by rw [hone, List.replicate_one]
  have hrelayed := h.relayed
  rw [System.trail, htaken] at hrelayed
  rw [hreaders]
  refine ⟨h.sound, hrelayed, .inr ⟨_, .aside, rfl, ?_, start_obeys consumer stops⟩⟩
  rfl

/-! ## The relay -/

theorem Kept.advance (h : Kept relay consumer s stages) (i : Nat)
    (pool : (r : Pooling.Request) → Requests.Answer r) :
    ∃ stages, Kept relay consumer { s with pipeline := s.pipeline.step (.advance i pool) } stages := by
  obtain ⟨hc, acc, l⟩ := h.sound
  rcases hc.advance_cases i pool with e | ⟨p, rest, stage', hp, ha, hobeys, htold⟩
  · refine ⟨stages, ?_⟩
    rw [Pipeline.System.step, e]
    exact h
  · refine ⟨moved stages i stage', ⟨hc.advanced hp (hc.tracks i p hp).at_stage ha hobeys htold,
      acc.advanced hc hp (hc.tracks i p hp) ha hobeys htold,
      l.advanced hc hp (hc.tracks i p hp).at_stage ha⟩, ?_, h.reader_keeps rfl rfl ?_⟩
    · have hrelayed := h.relayed
      rw [System.trail, ← List.append_assoc] at hrelayed
      have hnext := hrelayed.advanced hc acc l hp rfl ha
      rwa [List.append_assoc] at hnext
    · exact keeps_advanced ha

/-! ## Writers and others -/

theorem trail_of_ready {queue : String} (hr : s'.readers = s.readers) (hh : s'.handled = s.handled)
    (hready : s'.broker.ready queue = s.broker.ready queue) : s'.trail queue = s.trail queue := by
  rw [System.trail, System.trail, System.taken, System.taken, hr, hh, hready]

theorem brokers_write (s : Pipeline.System) (op : Outbox.Operation) :
    (s.write op).brokers = s.brokers := by
  unfold Pipeline.System.write
  split <;> rfl

/-- What writers may do: they write alone, rows for the queue, and lock nothing. -/
theorem of_mayWrite {op : Outbox.Operation} (h : s.mayWrite relay consumer op = true) :
    (∀ tx limit, op ≠ .fetch tx limit) ∧ (op.writes = true →
      (∀ tx, op.transaction? = some tx → s.pipeline.outbox.alone tx = true) ∧
      (s.pipeline.polls ≠ [] →
        ∀ row ∈ (s.pipeline.outbox.step op).rows ++ (s.pipeline.outbox.step op).staged,
          s.broker.sendsTo consumer.config.queue (relay.publishing row) = true)) := by
  unfold System.mayWrite at h
  split at h
  · cases h
  · rename_i hfetch
    refine ⟨fun tx limit e => hfetch tx limit e, fun hw => ?_⟩
    simp only [hw, Bool.not_true, Bool.false_or, Bool.and_eq_true, Bool.or_eq_true,
      List.isEmpty_iff] at h
    obtain ⟨halone, hmatched⟩ := h
    refine ⟨fun tx htx => ?_, fun hne => List.all_eq_true.mp (hmatched.resolve_left hne)⟩
    rwa [htx, Option.all_some] at halone

theorem Kept.write (h : Kept relay consumer s stages) {op : Outbox.Operation}
    (hmay : s.mayWrite relay consumer op = true) :
    Kept relay consumer { s with pipeline := s.pipeline.step (.write op) } stages := by
  obtain ⟨hfetch, hwrites⟩ := of_mayWrite hmay
  obtain ⟨hc, -, l⟩ := h.sound
  have hbrokers := brokers_write s.pipeline op
  have hbroker : ({ s with pipeline := s.pipeline.step (.write op) } : System).broker = s.broker :=
    congrFun hbrokers 0
  have htrail : ({ s with pipeline := s.pipeline.step (.write op) } : System).trail
      consumer.config.queue = s.trail consumer.config.queue :=
    trail_of_ready rfl rfl (by rw [hbroker])
  refine ⟨h.sound.step (e := .write op) (hc.write op), ?_, ?_⟩
  · rw [htrail]
    exact h.relayed.write hc l (fun tx htx hw => (hwrites hw).1 tx htx) (fun hw => (hwrites hw).2) hfetch
  · exact h.reader_keeps rfl rfl (hbroker ▸ .refl _)

/-- Something befalls the broker, but not the queue. -/
theorem Kept.befall (h : Kept relay consumer s stages) {activity : Memory.Activity}
    (hmay : s.mayBefall consumer activity = true) :
    Kept relay consumer (s.befall activity) stages := by
  have hready := Memory.ready_act (beq_iff_eq.mp hmay)
  have hkeeps := s.broker.keeps_act activity
  have htrail : (s.befall activity).trail consumer.config.queue = s.trail consumer.config.queue :=
    trail_of_ready rfl rfl (by rw [broker_befall, hready])
  refine ⟨h.sound.befall 0 activity, ?_, h.reader_keeps rfl rfl ?_⟩
  · rw [htrail]
    exact h.relayed.keeps (keeps_setBroker _ hkeeps)
  · rw [broker_befall]
    exact hkeeps

theorem Kept.start (h : Kept relay consumer s stages) (hmay : s.mayPoll relay consumer = true)
    (cancel : TokenId) (batchSize : Nat) :
    Kept relay consumer { s with pipeline := s.pipeline.step (.poll relay 0 cancel batchSize) }
      (moved stages s.pipeline.polls.length .fresh) := by
  obtain ⟨hended, hmatched⟩ := Bool.and_eq_true_iff.mp hmay
  refine ⟨h.sound.step (h.sound.consistent.start relay 0 cancel batchSize), ?_, h.reader⟩
  exact h.relayed.start hended (List.all_eq_true.mp hmatched) cancel batchSize

/-! ## Every event -/

theorem Kept.step (h : Kept relay consumer s stages) (hlanes : consumer.config.concurrency ≤ 1)
    (e : Event) : ∃ stages, Kept relay consumer (s.step relay consumer e) stages := by
  cases e with
  | write op =>
    simp only [System.step]
    split
    · rename_i hmay
      exact ⟨stages, h.write hmay⟩
    · exact ⟨stages, h⟩
  | poll cancel batchSize =>
    simp only [System.step]
    split
    · rename_i hmay
      exact ⟨_, h.start hmay cancel batchSize⟩
    · exact ⟨stages, h⟩
  | advance i pool => exact h.advance i pool
  | broker activity =>
    simp only [System.step]
    split
    · rename_i hmay
      exact ⟨stages, h.befall hmay⟩
    · exact ⟨stages, h⟩
  | run stops =>
    simp only [System.step]
    split
    · rename_i hended
      exact ⟨stages, h.run hlanes hended stops⟩
    · exact ⟨stages, h⟩
  | read reader others => exact ⟨stages, h.read reader others⟩

theorem kept_start (relay : Forwarder) (consumer : Consumer) :
    Kept relay consumer {} fun _ => .fresh :=
  ⟨⟨Pipeline.consistent_start _, Pipeline.accounted_start _, Pipeline.logged_start _⟩,
    relayed_start relay _ _, .inl rfl⟩

theorem kept_after (relay : Forwarder) (consumer : Consumer)
    (hlanes : consumer.config.concurrency ≤ 1) (events : List Event) :
    ∃ stages, Kept relay consumer (({} : System).after relay consumer events) stages := by
  have run : ∀ (events : List Event) (s : System) (stages : Nat → Stage),
      Kept relay consumer s stages → ∃ stages, Kept relay consumer (s.after relay consumer events) stages := by
    intro events
    induction events with
    | nil => exact fun s stages h => ⟨stages, h⟩
    | cons e events ih =>
      intro s stages h
      obtain ⟨stages', h'⟩ := h.step hlanes e
      exact ih _ stages' h'
  exact run events {} _ (kept_start relay consumer)

/-! ## What the handler sees -/

theorem handled_answer (s : System) (others : (r : Consuming.Request) → Requests.Answer r)
    (request : Consuming.Request) : (s.answer others request).2.handled = s.handled := by
  unfold System.answer
  split
  · rfl
  · split <;> rfl
  · rfl

/-- The handler is called with what a lane has taken, and with nothing else. -/
theorem handled_read (s : System) (reader : Nat)
    (others : (r : Consuming.Request) → Requests.Answer r) :
    (s.read reader others).handled = s.handled ∨
      ∃ r message, s.readers[reader]? = some r ∧ r.taken = some message ∧
        (s.read reader others).pipeline = s.pipeline ∧
        (s.read reader others).handled = s.handled ++ [message] := by
  unfold System.read
  split
  · exact .inl rfl
  · rename_i r hr
    split
    · rename_i message htaken
      exact .inr ⟨r, message, hr, htaken, rfl, rfl⟩
    · split
      · exact .inl rfl
      · rename_i request next hrest
        have hanswer := handled_answer s others request
        generalize s.answer others request = answered at hanswer ⊢
        obtain ⟨a | a, s'⟩ := answered
        · exact .inl hanswer
        · exact .inl hanswer

theorem handled_step (s : System) (relay : Forwarder) (consumer : Consumer) (e : Event) :
    (s.step relay consumer e).handled = s.handled ∨
      ∃ (reader : Nat) (r : Reader) (message : Message), s.readers[reader]? = some r ∧
        r.taken = some message ∧ (s.step relay consumer e).pipeline = s.pipeline ∧
        (s.step relay consumer e).handled = s.handled ++ [message] := by
  cases e with
  | read reader others => exact (handled_read s reader others).imp_right fun h => ⟨reader, h⟩
  | advance i pool => exact .inl rfl
  | _ =>
    refine .inl ?_
    simp only [System.step]
    split <;> rfl

/-- What the handler gets to see, and in which order. -/
structure InSequence (relay : Forwarder) (consumer : Consumer) (s : System) : Prop where
  /-- A handled message is of a committed row, and says what the row says. -/
  known : ∀ message ∈ s.handled, ∃ row ∈ s.pipeline.outbox.rows,
    rowOf s.pipeline.appended message = some row.id ∧ message.body = row.payload.encode
  /-- By the first time that they are handled, the rows ascend. -/
  ascending : s.handledRows.eraseDups.Pairwise (· < ·)
  /-- When a row is handled, all smaller ones that are committed have been handled. -/
  next : ∀ e, (s.step relay consumer e).handled = s.handled ∨
    ∃ message, ∃ row ∈ s.pipeline.outbox.rows,
      (s.step relay consumer e).handled = s.handled ++ [message] ∧
      (s.step relay consumer e).handledRows = s.handledRows ++ [row.id] ∧
      ∀ smaller ∈ s.pipeline.outbox.rows, smaller.id < row.id → smaller.id ∈ s.handledRows

/-- A message that is known is of a committed row. -/
theorem Sequenced.row {s : Pipeline.System} {trail : List Message} (h : Sequenced s trail)
    (l : Logged s) {message : Message} (hmem : message ∈ trail) : ∃ row ∈ s.outbox.rows,
      rowOf s.appended message = some row.id ∧ message.body = row.payload.encode := by
  obtain ⟨a, ha, hbody⟩ := h.known message hmem
  have hmem' := List.mem_of_find?_eq_some ha
  obtain ⟨p, -, -, hpub⟩ := l.sent a hmem'
  obtain ⟨row, hrow, e⟩ := l.committed a hmem'
  refine ⟨row, hrow, ?_, ?_⟩
  · rw [rowOf_of_entryOf ha]
    rcases e with rfl | rfl <;> rfl
  · rw [hbody, hpub]
    rcases e with rfl | rfl <;> rfl

theorem Kept.inSequence (h : Kept relay consumer s stages) : InSequence relay consumer s := by
  have l := h.sound.logged
  have hseq := h.relayed.sequenced
  have hinOrder := hseq.inOrder
  rw [System.trail, rowsOf_append_messages] at hinOrder
  refine ⟨fun message hmem => hseq.row l (List.mem_append_left _ hmem), ?_, fun e => ?_⟩
  · exact hinOrder.of_append.ascending fun id hid => committed_of_rowsOf l hid
  · refine (handled_step s relay consumer e).imp_right ?_
    rintro ⟨reader, r, message, hr, htaken, hpipeline, hhandled⟩
    have htake : s.taken = [message] := by
      rcases h.reader with hnone | ⟨r', g, hone, -⟩
      · simp [hnone] at hr
      · rw [hone, List.getElem?_singleton] at hr
        split at hr
        · obtain rfl := Option.some.inj hr
          simp [System.taken, hone, htaken]
        · cases hr
    have hmem : message ∈ s.trail consumer.config.queue := by
      simp [System.trail, htake]
    obtain ⟨row, hrow, hid, -⟩ := hseq.row l hmem
    refine ⟨message, row, hrow, hhandled, ?_, fun smaller hsmaller hlt => ?_⟩
    · rw [System.handledRows, hpipeline, hhandled, rowsOf_append_messages]
      simp only [System.handledRows, rowsOf, List.filterMap_cons, hid, List.filterMap_nil]
    · -- the message stands right behind those that were handled
      rw [htake, List.singleton_append, rowsOf, rowsOf, List.filterMap_cons_some hid] at hinOrder
      exact hinOrder.first ⟨smaller, hsmaller, rfl⟩ hlt

/-- Whatever events come, in whatever order, and whatever fails, the handler gets to see the rows in
their order. -/
theorem delivered_inOrder (relay : Forwarder) (consumer : Consumer)
    (hlanes : consumer.config.concurrency ≤ 1) (events : List Event) :
    InSequence relay consumer (({} : System).after relay consumer events) := by
  obtain ⟨stages, h⟩ := kept_after relay consumer hlanes events
  exact h.inSequence

/-- The pools lend publishers that have no channel yet, and keep none. -/
def lent : (r : Pooling.Request) → Requests.Answer r
  | .acquire .. => .ok { confirmed := true }
  | .putBack .. => none
  | .session r => (Memory.answer r {}).1
  | .drain _ => []
  | .shrink _ => ()
  | .detach _ => ()

/-- Counters stand at this, and nobody is told to stop. -/
def counted (count : Nat) : (r : Consuming.Request) → Requests.Answer r
  | .handler (.count _) => count
  | .handler .now => (0 : Nat)
  | .handler (.send _) => .ok ()
  | .handler (.sleep _) => ()
  | .handler (.note _) => ()
  | .handler .cancelRuns => ()
  | .handler .shutdown => ()
  | .session r => (Memory.answer r {}).1
  | .receive .. => .ended
  | .awaitCancelled _ => ()
  | .childToken _ => (0 : Nat)
  | .cancelToken _ => ()
  | .dropToken _ => ()
  | .spawnLane .. => ()
  | .join _ => none

/-- A consumer whose handler panics as long as its counter stands at zero. -/
def orders : Consumer where
  config := { queue := "orders" }
  handler _ := do
    match ← Handling.count 0 with
    | 0 => pure (.panicked .opaqueValue)
    | _ => Handling.succeed

/-- Two rows are sent twice, for the first commit fails; the handler panics once in between. -/
def twoRows : List Event :=
  let row : NewEntry := { eventName := "paid", payload := .null, createdAt := 0 }
  [.broker (.request .openChannel),
    .broker (.request (.declareExchange 0 "events" .topic true)),
    .broker (.request (.declareQueue 0 { name := "orders" })),
    .broker (.request (.bindQueue 0 "orders" "events" "paid" [])),
    .write .begin, .write (.insert 0 row), .write (.insert 0 row), .write (.commit 0),
    .write (.failNextCommits 1), .poll 0 2] ++
  List.replicate 14 (.advance 0 lent) ++ [.run []] ++ List.replicate 7 (.read 0 (counted 0)) ++
  [.poll 0 2] ++ List.replicate 14 (.advance 1 lent) ++ List.replicate 14 (.read 0 (counted 1))

theorem delivered_inOrder_twoRows :
    orders.config.concurrency ≤ 1 ∧
      (({} : System).after {} orders twoRows).handledRows = [1, 1, 2, 1, 2] ∧
      InSequence {} orders (({} : System).after {} orders twoRows) :=
  ⟨by decide, by decide +kernel, delivered_inOrder {} orders (by decide) twoRows⟩

end Courier.Delivery
