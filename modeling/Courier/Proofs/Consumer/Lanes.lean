import Courier.Proofs.Consumer.Invariant

/-!
# One step of a lane

A lane is answered by the broker, by its handler's surroundings, or by its tokens. For each place of
its protocol: what the answer is, what the lane has then, and so that the invariant is kept
(`good_runLane`).
-/

namespace Courier.Serving

open Memory (Activity)
open Delivery (again received?)

variable {m : Memory} {maker : Handle → Option Owner} {s : System} {j : Nat} {lane : Worker}
  {place place' : Place} {queue : String} {c : ChannelId} {stream : StreamId}
  {w : (r : Handler.Request) → Requests.Answer r}

/-! ## Streams -/

/-- A stream of another queue is not known here. -/
theorem Sane.not_mem_known (hs : Sane m maker) {st : Memory.Stream}
    (hget : m.streams[stream]? = some st) {name : String} (hne : name ≠ st.queue) :
    stream ∉ (m.waiters name).known := fun hmem => by
  obtain ⟨found, hfound, hqueue⟩ := hs.placed name stream hmem
  obtain rfl := Option.some.inj (hget.symm.trans hfound)
  exact hne hqueue.symm

/-- A stream that was let go of is known no longer. -/
theorem Sane.not_mem_known_dropStream (hs : Sane m maker) {st : Memory.Stream}
    (hget : m.streams[stream]? = some st) (name : String) :
    stream ∉ ((m.act (.request (.dropStream stream))).waiters name).known := by
  simp only [Memory.act, Memory.answer, Memory.dropStream, hget]
  cases hq : m.queue? st.queue with
  | none =>
    rw [Memory.notify_of_none _ hq]
    by_cases hname : name = st.queue
    · rw [hname, Memory.waiters, hq]
      exact List.not_mem_nil
    · exact hs.not_mem_known hget hname
  | some q =>
    rw [Memory.waiters_notify m st.queue _ hq]
    split
    · have hnodup := hs.nodup st.queue
      rw [Memory.waiters_of_queue? hq] at hnodup
      exact Notify.not_mem_known_abandon hnodup stream
    · rename_i hname
      exact hs.not_mem_known hget hname

/-- What a stream has, and that it is known no longer if it has a message. -/
inductive Looked (m : Memory) (stream : StreamId) (a : Activity) : Transport.Next → Prop where
  | waiting : Looked m stream a .waiting
  | ended : Looked m stream a .ended
  | delivered (message : Message) (hunknown : ∀ name, stream ∉ ((m.act a).waiters name).known) :
      Looked m stream a (.delivered m.deliveries.length message)

/-- A stream that has used its wake-up is known to no queue. -/
theorem Sane.not_mem_known_shelved (hs : Sane m maker) {st : Memory.Stream} {m' : Memory}
    {messages : List Message} (hget : m.streams[stream]? = some st)
    (hw : stream ∉ (m.waiters st.queue).waiting)
    (h : Memory.Shelved m st.queue ((m.waiters st.queue).rouse stream) messages m') (name : String) :
    stream ∉ (m'.waiters name).known := by
  by_cases hname : name = st.queue
  · rw [hname, h.waiters]
    exact Notify.not_mem_known_rouse (hs.nodup st.queue) hw
  · rw [(h.others name hname).1]
    exact hs.not_mem_known hget hname

theorem Sane.looked_look (hs : Sane m maker) {st : Memory.Stream}
    (hget : m.streams[stream]? = some st) :
    Looked m stream (.look stream) (m.look stream).1 := by
  have hfound := Memory.found m hget
  generalize hanswer : m.look stream = answer at hfound
  cases hfound with
  | asleep => exact .waiting
  | missing => exact .ended
  | past => exact .ended
  | taken hw _ h =>
    refine .delivered _ ?_
    rw [Memory.act, hanswer]
    exact hs.not_mem_known_shelved hget hw h
  | empty => exact .waiting

theorem Sane.looked_ask (hs : Sane m maker) {st : Memory.Stream}
    (hget : m.streams[stream]? = some st) : Looked m stream (.ask stream) (m.next stream).1 := by
  have hlooked := hs.looked_look hget
  rw [Memory.next_fst]
  by_cases hwaiting : (m.look stream).1 = .waiting
  · rw [hwaiting]
    exact .waiting
  · have hact : m.act (.ask stream) = m.act (.look stream) := by
      rw [Memory.act, Memory.next_of_ne_waiting hwaiting, Memory.act]
    generalize (m.look stream).1 = answer at hlooked
    cases hlooked with
    | waiting => exact .waiting
    | ended => exact .ended
    | delivered message hunknown => exact .delivered message (hact ▸ hunknown)

/-! ## What a lane has then -/

section LaneAt

variable (hs : Sane m maker) (hknown : ∀ d ∈ m.deliveries, m.queueExists d.queue = true)

include hs hknown

/-- A lane makes nothing and keeps its channel, and listens to no stream. -/
theorem LaneAt.plain (h : LaneAt m maker j queue place) {a : Activity} (hmade : a.made m = none)
    (hcloses : ∀ c, place.channel? = some c → a.closes c = false)
    (hchannel : place'.channel? = place.channel?) (hstream : place'.stream? = none)
    (hlistening : ∀ stream, a.handle? = some (.stream stream) ∨ place.listening? = some stream →
      ∀ name, stream ∉ ((m.act a).waiters name).known)
    (hdelivery : place.delivery? = none) (hdelivery' : place'.delivery? = none)
    (hclosed : ∀ c, place' = .closed c → place.channel? = some c) :
    LaneAt (m.act a) (made maker m (some (.lane j)) a) j queue place' := by
  refine h.moved hs hknown ?_ (fun stream hat => ?_) (fun stream name hmine hmem => ?_)
    (fun delivery hd => ?_) (fun delivery hd => ?_) hclosed
  · rw [hchannel]
    exact h.channels.kept hs (fun c hc => by rw [hmade] at hc; cases hc) hcloses
  · rw [hstream] at hat
    cases hat
  · exact absurd hmem (hlistening stream hmine name)
  · rw [hdelivery, hmade] at hd
    rcases hd with hd | hd <;> cases hd
  · rw [hdelivery'] at hd
    cases hd

/-- A lane uses its channel, which makes nothing. -/
theorem LaneAt.use (h : LaneAt m maker j queue (.opened c)) {r : Transport.Request}
    (hhandle : r.handle? = some (.channel c)) (hcloses : ∀ c, r.closes c = false)
    (hmade : Activity.made m (.request r) = none)
    (hplace : place' = .opened c ∨ place' = .closing c) :
    LaneAt (m.act (.request r)) (made maker m (some (.lane j)) (.request r)) j queue place' := by
  have hkept : place'.channel? = some c ∧ place'.stream? = none ∧ place'.delivery? = none ∧
      ∀ c, place' ≠ .closed c := by
    rcases hplace with rfl | rfl <;> exact ⟨rfl, rfl, rfl, nofun⟩
  obtain ⟨hchannel, hstream, hdelivery, hclosed⟩ := hkept
  refine h.plain hs hknown hmade (fun c _ => hcloses c) hchannel hstream (fun stream hmine => ?_) rfl
    hdelivery fun c hc => absurd hc (hclosed c)
  rcases hmine with hmine | hmine
  · cases hhandle.symm.trans hmine
  · cases hmine

theorem LaneAt.open (h : LaneAt m maker j queue .fresh) :
    LaneAt (m.act (.request .openChannel)) (made maker m (some (.lane j)) (.request .openChannel)) j
      queue (.opened m.channels.length) := by
  refine h.moved hs hknown (h.channels.opened hs) nofun (fun stream name hmine => ?_)
    (fun delivery hd => ?_) nofun nofun
  · rcases hmine with hmine | hmine <;> cases hmine
  · rcases hd with hd | hd <;> cases hd

theorem LaneAt.consume (h : LaneAt m maker j queue (.opened c)) {exclusive : Bool} {m' : Memory}
    (hconsume : m.consume c queue = .ok (stream, m')) :
    LaneAt (m.act (.request (.consume c queue exclusive)))
      (made maker m (some (.lane j)) (.request (.consume c queue exclusive))) j queue
      (.reading c stream) := by
  obtain ⟨-, hstreams, -⟩ := Memory.consume_eq_ok hconsume
  have hmade : Activity.made m (.request (.consume c queue exclusive)) = some (.stream stream) := by
    simp only [Activity.made, hconsume]
  have hact : m.act (.request (.consume c queue exclusive)) = m' := by
    simp only [Memory.act, Memory.answer, hconsume]
  refine h.moved hs hknown ?_ (fun found hfound => ?_) (fun found name hmine => ?_)
    (fun delivery hd => ?_) (fun _ hd => by cases hd) fun _ hc => by cases hc
  · refine h.channels.kept hs (fun c hc => ?_) fun _ _ => rfl
    rw [hmade] at hc
    cases hc
  · cases hfound
    refine ⟨c, rfl, .inr ⟨hmade, ?_⟩⟩
    obtain ⟨rfl, -⟩ := Memory.consume_eq_ok hconsume
    rw [hact, hstreams, List.getElem?_concat_length]
  · rcases hmine with hmine | hmine <;> cases hmine
  · rw [hmade] at hd
    rcases hd with hd | hd <;> cases hd

/-- A lane that finds nothing, or whose stream has ended. -/
theorem LaneAt.poll (h : LaneAt m maker j queue (.reading c stream)) {a : Activity}
    (hpolls : a.polls? = some stream) (hnone : a.made m = none)
    (hplace : place' = .reading c stream ∨ place' = .leaving c stream) :
    LaneAt (m.act a) (made maker m (some (.lane j)) a) j queue place' := by
  have hkept : place'.channel? = some c ∧ place'.stream? = some stream ∧
      place'.listening? = some stream ∧ place'.delivery? = none ∧ ∀ c, place' ≠ .closed c := by
    rcases hplace with rfl | rfl <;> exact ⟨rfl, rfl, rfl, rfl, nofun⟩
  obtain ⟨hchannel, hstream, hlistening, hdelivery, hclosed⟩ := hkept
  refine h.moved hs hknown ?_ (fun found hfound => ?_) (fun found name hmine _ => ?_)
    (fun delivery hd => ?_) (fun delivery hd => ?_) fun c hc => absurd hc (hclosed c)
  · rw [hchannel]
    exact h.channels.kept hs (fun c hc => by rw [hnone] at hc; cases hc) fun c _ =>
      Activity.closes_of_polls hpolls c
  · exact ⟨c, hchannel, .inl ⟨hstream.symm.trans hfound, rfl⟩⟩
  · rw [Activity.handle_of_polls hpolls] at hmine
    rcases hmine with hmine | hmine <;> cases hmine <;> exact hlistening
  · rw [hnone] at hd
    rcases hd with hd | hd <;> cases hd
  · rw [hdelivery] at hd
    cases hd

theorem LaneAt.take (h : LaneAt m maker j queue (.reading c stream)) {a : Activity}
    {delivery : DeliveryId} (hpolls : a.polls? = some stream)
    (hmade : a.made m = some (.delivery delivery))
    (hunknown : ∀ name, stream ∉ ((m.act a).waiters name).known) :
    LaneAt (m.act a) (made maker m (some (.lane j)) a) j queue (.holding c stream delivery) := by
  refine h.moved hs hknown ?_ (fun found hfound => ?_) (fun found name hmine hmem => ?_)
    (fun found hd => ?_) (fun found hd => ?_) nofun
  · refine h.channels.kept hs (fun c hc => ?_) fun c _ => Activity.closes_of_polls hpolls c
    rw [hmade] at hc
    cases hc
  · exact ⟨c, rfl, .inl ⟨hfound, rfl⟩⟩
  · rw [Activity.handle_of_polls hpolls] at hmine
    rcases hmine with hmine | hmine <;> cases hmine <;> exact absurd hmem (hunknown name)
  · rw [hmade] at hd
    rcases hd with hd | hd <;> cases hd
    exact .inr rfl
  · cases hd
    exact .inr hmade

theorem LaneAt.settle {delivery : DeliveryId} (h : LaneAt m maker j queue (.holding c stream delivery))
    {r : Transport.Request} (hr : r = .ack delivery ∨ ∃ requeue, r = .nack delivery requeue) :
    LaneAt (m.act (.request r)) (made maker m (some (.lane j)) (.request r)) j queue
      (.reading c stream) := by
  have hplain : Activity.made m (.request r) = none ∧ Activity.handle? (.request r) =
      some (.delivery delivery) ∧ ∀ c, Activity.closes c (.request r) = false := by
    rcases hr with rfl | ⟨requeue, rfl⟩ <;> exact ⟨rfl, rfl, fun _ => rfl⟩
  obtain ⟨hmade, hhandle, hcloses⟩ := hplain
  refine h.moved hs hknown ?_ (fun found hfound => ?_) (fun found name hmine _ => ?_)
    (fun found hd => ?_) nofun nofun
  · exact h.channels.kept hs (fun c hc => by rw [hmade] at hc; cases hc) fun c _ => hcloses c
  · exact ⟨c, rfl, .inl ⟨hfound, rfl⟩⟩
  · rw [hhandle] at hmine
    rcases hmine with hmine | hmine <;> cases hmine
  · rw [hmade] at hd
    rcases hd with hd | hd <;> cases hd
    exact .inl (Memory.settled_request hknown (hs.has _ _ (h.delivery delivery rfl)) hr)

theorem LaneAt.close (h : LaneAt m maker j queue (.closing c)) :
    LaneAt (m.act (.request (.close c))) (made maker m (some (.lane j)) (.request (.close c))) j queue
      (.closed c) := by
  refine h.moved hs hknown (h.channels.shut hs (decide_eq_true rfl) rfl) nofun
    (fun found name hmine => ?_) (fun found hd => ?_) nofun fun c' hc => by cases hc; rfl
  · rcases hmine with hmine | hmine <;> cases hmine
  · rcases hd with hd | hd <;> cases hd

end LaneAt

/-- A lane is told to stop while it reads. -/
theorem LaneAt.stop (h : LaneAt m maker j queue (.reading c stream)) :
    LaneAt m maker j queue (.leaving c stream) :=
  ⟨h.channels, h.stream, h.known, h.deliveries, h.delivery, nofun⟩

/-! ## The step -/

theorem unfinished_of_ask {r : Consuming.Request}
    {next : Requests.Answer r → Consuming.Action (Lane ⊕ Except ConsumeError Unit)}
    (hrest : lane.rest = .ask r next) : lane.finished = false := by
  rw [Worker.finished, hrest]

theorem System.runLane_eq (hget : s.lanes[j]? = some lane) {r : Consuming.Request}
    {next : Requests.Answer r → Consuming.Action (Lane ⊕ Except ConsumeError Unit)}
    (hrest : lane.rest = .ask r next) :
    s.runLane j w = System.hearLane j lane next (s.answerLane j w r) := by
  simp only [System.runLane, hget, hrest]

/-- A lane uses what it has. -/
theorem Good.befall_lane (h : Good none s) (hget : s.lanes[j]? = some lane) {a : Activity}
    (hmay : May s.maker (some (.lane j)) a) :
    Good (some (.lane j)) (s.befall (some (.lane j)) a) :=
  (h.except _).befall hmay fun o ho => by
    cases ho
    exact (List.getElem?_eq_some_iff.mp hget).1

/-- Only who waits for tokens has changed. -/
theorem Good.register {x : Option Owner} (h : Good x s) (j : Nat) (stops : List TokenId) :
    Good x (s.register j stops) :=
  h.frame rfl rfl rfl rfl rfl (h.proper.similar (Tokens.similar_foldl
    (Tokens.similar_register · · j) stops s.tokens) none) nofun fun _ _ hx => hx

theorem Good.unregister {x : Option Owner} (h : Good x s) (j : Nat) (stops : List TokenId) :
    Good x (s.unregister j stops) :=
  h.frame rfl rfl rfl rfl rfl (h.proper.similar (Tokens.similar_foldl
    (Tokens.similar_unregister · · j) stops s.tokens) none) nofun fun _ _ hx => hx

theorem broker_register_befall (s : System) (x : Option Owner) (a : Activity) (j : Nat)
    (stops : List TokenId) : ((s.befall x a).register j stops).broker = s.broker.act a :=
  broker_befall s x a

theorem broker_unregister_befall (s : System) (x : Option Owner) (a : Activity) (j : Nat)
    (stops : List TokenId) : ((s.befall x a).unregister j stops).broker = s.broker.act a :=
  broker_befall s x a

/-- A lane uses what it has made. -/
theorem LaneGood.owns (h : LaneGood s j lane place) {r : Transport.Request}
    {next : Requests.Answer r → Consuming.Action (Lane ⊕ Except ConsumeError Unit)}
    (hrest : lane.rest = .ask (.session r) next) : May s.maker (some (.lane j)) (.request r) := by
  have hhas := h.has
  have hobeys := h.obeys
  rw [hrest] at hobeys
  obtain ⟨a, place', hm⟩ := hobeys.allowed
  intro o ho
  cases hm with
  | opened | unopened => cases ho
  | limited c | unlimited c | consumed c | unconsumed c | closed c =>
    cases ho
    exact (hhas.channels.mine c rfl).1
  | acked c stream delivery | nacked c stream delivery =>
    cases ho
    exact hhas.delivery delivery rfl
  | left c stream =>
    cases ho
    exact (hhas.stream stream rfl).1
  | dropped c =>
    cases ho
    exact hhas.closed c rfl

/-- A lane that is to receive reads its stream, with its tokens. -/
theorem LaneGood.reads (h : LaneGood s j lane place) {stops : List TokenId}
    {next : Requests.Answer (Consuming.Request.receive stream stops) →
      Consuming.Action (Lane ⊕ Except ConsumeError Unit)}
    (hrest : lane.rest = .ask (.receive stream stops) next) :
    stops = lane.stops ∧ ∃ c, place = .reading c stream := by
  have hobeys := h.obeys
  rw [hrest] at hobeys
  obtain ⟨a, place', hm⟩ := hobeys.allowed
  cases hm with
  | taken c | stopped c => exact ⟨rfl, c, rfl⟩

section Steps

variable (h : Good none s) (hget : s.lanes[j]? = some lane) (hgood : LaneGood s j lane place)

include h hget hgood

/-- The broker answers a request. -/
theorem good_session {r : Transport.Request} {a : Requests.Answer r}
    {next : Requests.Answer r → Consuming.Action (Lane ⊕ Except ConsumeError Unit)}
    (hrest : lane.rest = .ask (.session r) next)
    (hanswer : (Memory.answer r s.broker).1 = a)
    (hmoves : Moves lane.consumer.config lane.stops place (.session r) a place')
    (hhas : LaneAt (s.broker.act (.request r))
      (made s.maker s.broker (some (.lane j)) (.request r)) j lane.queue place') :
    Good none (s.runLane j w) := by
  subst hanswer
  have hbefall := h.befall_lane hget (hgood.owns hrest)
  have hobeys := hgood.obeys
  rw [hrest] at hobeys
  rw [System.runLane_eq hget hrest]
  refine hbefall.goOn hget (unfinished_of_ask hrest) (hobeys.next hmoves) ?_
  rw [broker_befall]
  exact hhas

theorem good_limit {next : Requests.Answer (Consuming.Request.session (.qos c
      lane.consumer.config.prefetch)) → Consuming.Action (Lane ⊕ Except ConsumeError Unit)}
    (hrest : lane.rest = .ask (.session (.qos c lane.consumer.config.prefetch)) next)
    (hplace : place = .opened c) : Good none (s.runLane j w) := by
  subst hplace
  cases hanswer : (Memory.answer (.qos c lane.consumer.config.prefetch) s.broker).1 with
  | ok =>
    refine good_session h hget hgood hrest hanswer (.limited c) ?_
    exact hgood.has.use h.sane s.known rfl (fun _ => rfl) rfl (.inl rfl)
  | error e =>
    refine good_session h hget hgood hrest hanswer (.unlimited c e) ?_
    exact hgood.has.use h.sane s.known rfl (fun _ => rfl) rfl (.inr rfl)

theorem good_consume {next : Requests.Answer (Consuming.Request.session (.consume c
      lane.consumer.config.queue lane.consumer.config.exclusive)) →
      Consuming.Action (Lane ⊕ Except ConsumeError Unit)}
    (hrest : lane.rest = .ask (.session (.consume c lane.consumer.config.queue
      lane.consumer.config.exclusive)) next)
    (hplace : place = .opened c) : Good none (s.runLane j w) := by
  subst hplace
  cases hconsume : s.broker.consume c lane.consumer.config.queue with
  | ok p =>
    have hanswer : (Memory.answer (.consume c lane.consumer.config.queue
        lane.consumer.config.exclusive) s.broker).1 = .ok p.1 := by
      simp only [Memory.answer, hconsume]
    refine good_session h hget hgood hrest hanswer (.consumed c p.1) ?_
    exact hgood.has.consume h.sane s.known hconsume
  | error e =>
    have hanswer : (Memory.answer (.consume c lane.consumer.config.queue
        lane.consumer.config.exclusive) s.broker).1 = .error e := by
      simp only [Memory.answer, hconsume]
    have hmade : Activity.made s.broker (.request (.consume c lane.consumer.config.queue
        lane.consumer.config.exclusive)) = none := by
      simp only [Activity.made, hconsume]
    refine good_session h hget hgood hrest hanswer (.unconsumed c e) ?_
    exact hgood.has.use h.sane s.known rfl (fun _ => rfl) hmade (.inr rfl)

theorem good_handler {r : Handler.Request}
    {next : Requests.Answer r → Consuming.Action (Lane ⊕ Except ConsumeError Unit)}
    (hrest : lane.rest = .ask (.handler r) next)
    (hmoves : ∀ a, Moves lane.consumer.config lane.stops place (.handler r) a place) :
    Good none (s.runLane j w) := by
  have hobeys := hgood.obeys
  rw [hrest] at hobeys
  rw [System.runLane_eq hget hrest]
  exact (h.except _).goOn hget (unfinished_of_ask hrest) (hobeys.next (hmoves (w r))) hgood.has

/-- A lane finds one of its tokens cancelled. -/
theorem good_stop {next : Requests.Answer (Consuming.Request.receive stream lane.stops) →
      Consuming.Action (Lane ⊕ Except ConsumeError Unit)}
    (hrest : lane.rest = .ask (.receive stream lane.stops) next) (hplace : place = .reading c stream) :
    Good none (System.hearLane j lane next (some .stopped, s.unregister j lane.stops)) := by
  subst hplace
  have hobeys := hgood.obeys
  rw [hrest] at hobeys
  exact ((h.except (some (.lane j))).unregister j lane.stops).goOn hget (unfinished_of_ask hrest)
    (hobeys.next (.stopped c stream fun _ _ hd => by cases hd)) hgood.has.stop

/-- A lane goes on with what its stream has. -/
theorem good_received {next : Requests.Answer (Consuming.Request.receive stream lane.stops) →
      Consuming.Action (Lane ⊕ Except ConsumeError Unit)}
    (hrest : lane.rest = .ask (.receive stream lane.stops) next) (hplace : place = .reading c stream)
    {a : Activity} (hpolls : a.polls? = some stream) {answer : Transport.Next}
    (hlooked : Looked s.broker stream a answer) (hmade : a.made s.broker = answer.handle?)
    {received : Consuming.Received} (hreceived : received? answer = some received) :
    Good none (System.hearLane j lane next
      (some received, (s.befall (some (.lane j)) a).unregister j lane.stops)) := by
  subst hplace
  have hobeys := hgood.obeys
  rw [hrest] at hobeys
  have hunfinished := unfinished_of_ask hrest
  have hmine := (hgood.has.stream stream rfl).1
  have hmay : May s.maker (some (.lane j)) a := fun o ho => by
    rw [Activity.handle_of_polls hpolls] at ho
    cases ho
    exact hmine
  have hbefall := h.befall_lane hget hmay
  cases hlooked with
  | waiting => cases hreceived
  | ended =>
    cases hreceived
    refine (hbefall.unregister j lane.stops).goOn hget hunfinished
      (hobeys.next (.stopped c stream fun _ _ hd => by cases hd)) ?_
    rw [broker_unregister_befall]
    exact hgood.has.poll h.sane s.known hpolls hmade (.inr rfl)
  | delivered message hunknown =>
    cases hreceived
    refine (hbefall.unregister j lane.stops).goOn hget hunfinished
      (hobeys.next (.taken c stream _ message)) ?_
    rw [broker_unregister_befall]
    exact hgood.has.take h.sane s.known hpolls hmade hunknown

/-- A lane looks at its tokens, and then at its stream. -/
theorem good_receive {next : Requests.Answer (Consuming.Request.receive stream lane.stops) →
      Consuming.Action (Lane ⊕ Except ConsumeError Unit)}
    (hrest : lane.rest = .ask (.receive stream lane.stops) next) (hplace : place = .reading c stream) :
    Good none (s.runLane j w) := by
  subst hplace
  rw [System.runLane_eq hget hrest]
  simp only [System.answerLane, System.receive]
  split
  · exact good_stop h hget hgood hrest rfl
  · obtain ⟨hmine, c', -, hstream⟩ := hgood.has.stream stream rfl
    have hlooked := h.sane.looked_ask hstream
    have hasleep := Memory.asleep_next hstream (h.sane.nodup _)
    split
    · rename_i hreceived
      have hwaiting : (s.broker.next stream).1 = .waiting := by
        generalize (s.broker.next stream).1 = answer at hlooked hreceived
        cases hlooked with
        | waiting => rfl
        | _ => cases hreceived
      have hbefall := h.befall_lane hget (a := .ask stream) fun o ho => by
        cases ho
        exact hmine
      refine (hbefall.register j lane.stops).rest hget hgood.obeys hgood.turned ?_
        ⟨c, stream, rfl, ?_⟩
      · rw [broker_register_befall]
        exact hgood.has.poll h.sane s.known rfl (by rw [Activity.made, hwaiting]; rfl) (.inl rfl)
      · rw [broker_register_befall]
        exact hasleep hwaiting
    · rename_i received hreceived
      exact good_received h hget hgood hrest rfl rfl hlooked rfl hreceived

end Steps

/-- Whatever a lane does next, the invariant is kept. -/
theorem good_runLane (h : Good none s) (j : Nat) (w : (r : Handler.Request) → Requests.Answer r) :
    Good none (s.runLane j w) := by
  cases hget : s.lanes[j]? with
  | none =>
    simp only [System.runLane, hget]
    exact h
  | some lane =>
  cases hrest : lane.rest with
  | done result =>
    simp only [System.runLane, hget, hrest]
    exact h
  | ask r next =>
  obtain ⟨place, hgood⟩ := h.lane j lane hget nofun
  have hhas := hgood.has
  have hobeys := hgood.obeys
  rw [hrest] at hobeys
  -- the place says which request this is
  obtain ⟨a, place', hm⟩ := hobeys.allowed
  cases hm with
  | opened =>
    exact good_session h hget hgood hrest rfl (.opened _) (hhas.open h.sane s.known)
  | unopened =>
    exact good_session h hget hgood hrest rfl (.opened _) (hhas.open h.sane s.known)
  | limited c => exact good_limit h hget hgood hrest rfl
  | unlimited c => exact good_limit h hget hgood hrest rfl
  | consumed c => exact good_consume h hget hgood hrest rfl
  | unconsumed c => exact good_consume h hget hgood hrest rfl
  | taken c stream delivery message => exact good_receive h hget hgood hrest rfl
  | stopped c stream => exact good_receive h hget hgood hrest rfl
  | handled c stream delivery =>
    exact good_handler h hget hgood hrest fun a => .handled c stream delivery a
  | acked c stream delivery =>
    exact good_session h hget hgood hrest rfl (.acked c stream delivery _)
      (hhas.settle h.sane s.known (.inl rfl))
  | nacked c stream delivery requeue =>
    exact good_session h hget hgood hrest rfl (.nacked c stream delivery requeue _)
      (hhas.settle h.sane s.known (.inr ⟨requeue, rfl⟩))
  | left c stream =>
    obtain ⟨-, c', -, hstream⟩ := hhas.stream stream rfl
    refine good_session h hget hgood hrest rfl (.left c stream)
      (hhas.plain h.sane s.known rfl (fun _ _ => rfl) rfl rfl (fun found hfound name => ?_) rfl rfl
        nofun)
    rcases hfound with hfound | hfound <;> cases hfound <;>
      exact h.sane.not_mem_known_dropStream hstream name
  | closed c =>
    exact good_session h hget hgood hrest rfl (.closed c _) (hhas.close h.sane s.known)
  | dropped c =>
    refine good_session h hget hgood hrest rfl (.dropped c)
      (hhas.plain h.sane s.known rfl nofun rfl rfl (fun found hfound => ?_) rfl rfl nofun)
    rcases hfound with hfound | hfound <;> cases hfound

end Courier.Serving
