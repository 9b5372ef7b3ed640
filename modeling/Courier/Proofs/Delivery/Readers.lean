import Courier.Proofs.Delivery.System

/-!
# A lane and its queue

`System.trail` is all that has been in the queue: what was handled, what was taken, and what is ready,
in this order. A lane that goes on moves messages along it, and puts copies of handled messages back;
beside this nothing happens (`Passed`, `read_passed`). `Reader.Tracks` is what a lane keeps to for it:
it reads a stream of the queue, and the delivery that it has to settle is of a message that it handles.
-/

namespace Courier

/-- A stream that has been opened is there. -/
theorem Memory.streams_consume {m : Memory} {channel : ChannelId} {queue : String} {exclusive : Bool}
    {stream : StreamId} (h : (answer (.consume channel queue exclusive) m).1 = .ok stream) :
    (answer (.consume channel queue exclusive) m).2.streams[stream]? = some ⟨channel, queue⟩ := by
  simp only [answer] at h ⊢
  cases hc : m.consume channel queue with
  | error e =>
    rw [hc] at h
    cases h
  | ok opened =>
    obtain ⟨stream', m'⟩ := opened
    rw [hc] at h
    cases h
    unfold consume at hc
    cases ho : m.openChannel? channel with
    | error e =>
      rw [ho] at hc
      cases hc
    | ok c =>
      cases hq : m.queueExists queue with
      | false => simp [ho, hq, bind, Except.bind] at hc
      | true =>
        simp only [ho, hq, bind, Except.bind, if_true, Except.ok.injEq, Prod.mk.injEq] at hc
        obtain ⟨rfl, rfl⟩ := hc
        simp

namespace Delivery

variable {s s' : System} {m m' : Memory} {queue : String} {r r' : Reader} {g : Reading}
  {handled handled' : List Message}

/-! ## Where a lane stands -/

/-- A stream of the queue. -/
def StreamOf (m : Memory) (queue : String) (stream : StreamId) : Prop :=
  ∃ s, m.streams[stream]? = some s ∧ s.queue = queue

/-- The lane and its broker at each stage. -/
def Reader.At (m : Memory) (handled : List Message) (queue : String) (r : Reader) : Reading → Prop
  | .aside => r.taken = none
  | .waiting stream => r.taken = none ∧ StreamOf m queue stream
  | .holding stream delivery => StreamOf m queue stream ∧ ∃ d, m.deliveries[delivery]? = some d ∧
      (r.taken = some d.message ∨ r.taken = none ∧ d.message ∈ handled)

/-- A lane is at a stage, and what is left of its turn keeps to the protocol from there. -/
structure Reader.Tracks (m : Memory) (handled : List Message) (queue : String) (r : Reader)
    (g : Reading) : Prop where
  at_reading : r.At m handled queue g
  obeys : r.rest.Obeys (Reads queue) Turned g

theorem StreamOf.keeps {stream : StreamId} (h : StreamOf m queue stream) (hk : m.Keeps m') :
    StreamOf m' queue stream := by
  obtain ⟨s, hs, hq⟩ := h
  exact ⟨s, hk.streams _ s hs, hq⟩

/-- A lane stays where it is, whatever befalls the broker. -/
theorem Reader.Tracks.keeps (h : r.Tracks m handled queue g) (hk : m.Keeps m') :
    r.Tracks m' handled queue g := by
  refine ⟨?_, h.obeys⟩
  have hat := h.at_reading
  cases g with
  | aside => exact hat
  | waiting stream => exact ⟨hat.1, hat.2.keeps hk⟩
  | holding stream delivery =>
    obtain ⟨hs, d, hd, hmessage⟩ := hat
    obtain ⟨d', hd', e⟩ := hk.deliveries _ d hd
    exact ⟨hs.keeps hk, d', hd', e ▸ hmessage⟩

/-- The next turn keeps to the protocol, too. -/
theorem obeys_again {p : Consuming.Action (Lane ⊕ Except ConsumeError Unit)}
    (h : p.Obeys (Reads queue) Turned g) : (again p).Obeys (Reads queue) Turned g := by
  cases p with
  | ask r next => exact h
  | done result =>
    cases result with
    | inr ended => exact h
    | inl lane =>
      obtain rfl : g = .waiting lane.stream := h
      exact turn_obeys lane

/-- A lane that has ended has no message. -/
theorem Reader.Tracks.taken_of_ended (h : r.Tracks m handled queue g) (he : r.ended = true) :
    r.taken = none := by
  obtain ⟨hat, hobeys⟩ := h
  unfold Reader.ended at he
  split at he
  · rename_i result hdone
    rw [hdone] at hobeys
    cases result with
    | inl lane =>
      obtain rfl : g = .waiting lane.stream := hobeys
      exact hat.1
    | inr ended =>
      obtain rfl : g = .aside := hobeys
      exact hat
  · cases he

/-! ## What has been in the queue -/

/-- The messages that lanes have taken and not yet handled. -/
def System.taken (s : System) : List Message :=
  s.readers.filterMap (·.taken)

/-- The messages of a queue: those that were handled, those that were taken, and those that are
ready. -/
def System.trail (s : System) (queue : String) : List Message :=
  s.handled ++ (s.taken ++ s.broker.ready queue)

/-- Messages that were handled, again. -/
def Repeats (handled again : List Message) : Prop :=
  ∀ message ∈ again, ∃ old ∈ handled, Memory.Message.Again old message

/-- A lane has gone on. -/
structure Passed (queue : String) (s s' : System) : Prop where
  pipeline : s'.pipeline = s.pipeline ∨
    ∃ activity, s'.pipeline = s.pipeline.step (.broker 0 activity)
  readers : ∃ r g, s'.readers = [r] ∧ r.Tracks s'.broker s'.handled queue g
  trail : ∃ front back, s'.trail queue =
      s.handled ++ front ++ (s.taken ++ s.broker.ready queue) ++ back ∧
    Repeats s.handled (front ++ back)

theorem Passed.of_trail (hp : s'.pipeline = s.pipeline ∨
      ∃ activity, s'.pipeline = s.pipeline.step (.broker 0 activity))
    (hr : s'.readers = [r]) (ht : r.Tracks s'.broker s'.handled queue g)
    (htrail : s'.trail queue = s.trail queue) : Passed queue s s' :=
  ⟨hp, ⟨r, g, hr, ht⟩, [], [], by rw [htrail, System.trail]; simp, fun _ h => by cases h⟩

@[simp] theorem broker_befall (s : System) (activity : Memory.Activity) :
    (s.befall activity).broker = s.broker.act activity := by
  simp [System.broker, System.befall, Pipeline.System.step, Pipeline.System.setBroker]

/-- The lane calls its handler with the message that it has taken. -/
theorem Passed.of_taken {message : Message} (hr : s.readers = [r])
    (ht : r.Tracks s.broker s.handled queue g) (htaken : r.taken = some message) :
    Passed queue s { s with
      handled := s.handled ++ [message]
      readers := [{ r with taken := none }] } := by
  refine .of_trail (.inl rfl) rfl (g := g) ⟨?_, ht.obeys⟩ ?_
  · have hat := ht.at_reading
    cases g with
    | aside => rfl
    | waiting stream => exact ⟨rfl, hat.2⟩
    | holding stream delivery =>
      obtain ⟨hs, d, hd, htake | ⟨hnone, -⟩⟩ := hat
      · obtain rfl : d.message = message := Option.some.inj (htake.symm.trans htaken)
        exact ⟨hs, d, hd, .inr ⟨rfl, List.mem_append_right _ (List.mem_singleton.mpr rfl)⟩⟩
      · rw [hnone] at htaken
        cases htaken
  · simp only [System.trail, System.taken, hr, List.filterMap_cons, htaken, List.filterMap_nil,
      List.append_assoc, List.nil_append]
    rfl

/-- The lane is answered without the broker. -/
theorem Passed.of_others (hr : s.readers = [r]) (htaken : r.taken = none) (htaken' : r'.taken = none)
    (ht : r'.Tracks s.broker s.handled queue g) :
    Passed queue s { s with readers := [r'] } := by
  refine .of_trail (.inl rfl) rfl ht ?_
  simp only [System.trail, System.taken, hr, List.filterMap_cons, htaken, htaken', List.filterMap_nil]
  rfl

/-- The lane is answered by the broker. -/
theorem Passed.of_befall {activity : Memory.Activity} (hr : s.readers = [r])
    (htaken : r.taken = none)
    (ht : r'.Tracks (s.broker.act activity) s.handled queue g)
    (htrail : ∃ front back, r'.taken.toList ++ (s.broker.act activity).ready queue =
        front ++ s.broker.ready queue ++ back ∧ Repeats s.handled (front ++ back)) :
    Passed queue s { s.befall activity with readers := [r'] } := by
  refine ⟨.inr ⟨activity, rfl⟩, ⟨r', g, rfl, ?_⟩, ?_⟩
  · have hbroker := broker_befall s activity
    exact hbroker.symm ▸ ht
  · obtain ⟨front, back, hready, hrepeats⟩ := htrail
    refine ⟨front, back, ?_, hrepeats⟩
    have hbroker : ({ s.befall activity with readers := [r'] } : System).broker =
        s.broker.act activity := broker_befall s activity
    have hnew : [r'].filterMap (·.taken) = r'.taken.toList := by
      cases htaken' : r'.taken <;> simp [htaken']
    simp only [System.trail, System.taken, hbroker, hnew, hready, hr, List.filterMap_cons, htaken,
      List.filterMap_nil, List.nil_append]
    simp only [System.befall, List.append_assoc]

/-- So is one that is not answered yet. -/
theorem Passed.of_waiting {activity : Memory.Activity} (hr : s.readers = [r])
    (ht : r.Tracks s.broker s.handled queue g)
    (hready : (s.broker.act activity).ready queue = s.broker.ready queue) :
    Passed queue s (s.befall activity) := by
  have hbroker := broker_befall s activity
  refine .of_trail (.inr ⟨activity, rfl⟩) hr (hbroker.symm ▸ ht.keeps (s.broker.keeps_act activity)) ?_
  simp only [System.trail, hbroker, hready]
  rfl

/-! ## Going on -/

theorem change_of_isPlain {r : Transport.Request} (h : isPlain r = true) (m : Memory) :
    Memory.Change m (Memory.answer r m).2 := by
  cases r with
  | publish => cases h
  | nack => cases h
  | _ => exact Memory.answer_change rfl rfl m

/-- A request that leaves the queue alone. -/
theorem Passed.of_change {request : Transport.Request} (hr : s.readers = [r])
    (htaken : r.taken = none) (htaken' : r'.taken = none)
    (hc : Memory.Change s.broker (Memory.answer request s.broker).2)
    (ht : r'.Tracks (Memory.answer request s.broker).2 s.handled queue g) :
    Passed queue s { s.befall (.request request) with readers := [r'] } := by
  refine .of_befall hr htaken ht ⟨[], [], ?_, fun _ h => by cases h⟩
  have hready : (s.broker.act (.request request)).ready queue = s.broker.ready queue :=
    hc.ready queue
  rw [htaken', hready, Option.toList_none, List.nil_append, List.append_nil]

/-- The delivery is refused: copies of its message, which has been handled, may come back. -/
theorem Passed.of_nack {delivery : DeliveryId} {requeue : Bool} {d : Memory.Delivery}
    (hr : s.readers = [r]) (htaken : r.taken = none) (htaken' : r'.taken = none)
    (hd : s.broker.deliveries[delivery]? = some d) (hhandled : d.message ∈ s.handled)
    (ht : r'.Tracks (Memory.answer (.nack delivery requeue) s.broker).2 s.handled queue g) :
    Passed queue s { s.befall (.request (.nack delivery requeue)) with readers := [r'] } := by
  refine .of_befall hr htaken ht ?_
  rw [htaken', Option.toList_none, List.nil_append]
  rcases Memory.nack_cases s.broker delivery requeue with hm | ⟨d', m₁, hd', hc, -, hm⟩
  · refine ⟨[], [], ?_, fun _ h => by cases h⟩
    rw [Memory.act, hm, List.nil_append, List.append_nil]
  · obtain rfl : d = d' := Option.some.inj (hd.symm.trans hd')
    obtain ⟨front, back, hready, hagain⟩ := hm.ready_eq queue
    refine ⟨front, back, ?_, fun message hmem => ⟨d.message, hhandled, hagain message hmem⟩⟩
    rw [Memory.act, hready, hc.ready]

/-- A delivery whose message is no longer to be handled has been handled. -/
theorem handled_of_holding {d : Memory.Delivery} (htaken : r.taken = none)
    (h : r.taken = some d.message ∨ r.taken = none ∧ d.message ∈ handled) : d.message ∈ handled := by
  rcases h with h | ⟨-, h⟩
  · rw [htaken] at h
    cases h
  · exact h

/-- The stream is asked: it has the next message of the queue, or nothing. -/
theorem Passed.of_ask {stream : StreamId} {stops : List TokenId}
    {next : Consuming.Received → Consuming.Action (Lane ⊕ Except ConsumeError Unit)}
    (hr : s.readers = [r]) (htaken : r.taken = none)
    (ht : r.Tracks s.broker s.handled queue (.waiting stream))
    (hrest : r.rest = .ask (.receive stream stops) next) :
    Passed queue s (System.heard 0 (.receive stream stops) next
      (received? (s.broker.next stream).1, s.befall (.ask stream))) := by
  have hobeys := ht.obeys
  rw [hrest] at hobeys
  have hreaders : (s.befall (.ask stream)).readers = [r] := hr
  obtain ⟨-, stream', hs, rfl⟩ := ht.at_reading
  have hasked := Memory.next_asked hs
  have hkeeps : s.broker.Keeps (s.broker.next stream).2 := s.broker.keeps_act (.ask stream)
  cases hnext : s.broker.next stream with
  | mk answer m' =>
    rw [hnext] at hasked hkeeps
    have hact : s.broker.act (.ask stream) = m' := by rw [Memory.act, hnext]
    cases hasked with
    | nothing hanswer hsame =>
      have hready : (s.broker.act (.ask stream)).ready stream'.queue =
          s.broker.ready stream'.queue := by
        rw [hact, Memory.ready, hsame.ready, Memory.ready]
      have stop : ∀ received, (∀ d message, received ≠ .delivered d message) →
          messageIn (.receive stream stops) received = none →
          Passed stream'.queue s { s.befall (.ask stream) with
            readers := [⟨again (next received), messageIn (.receive stream stops) received⟩] } := by
        intro received hnone htaken'
        refine .of_befall (g := .aside) hr htaken
          ⟨htaken', obeys_again (hobeys.next (.leave hnone))⟩ ⟨[], [], ?_, fun _ h => by cases h⟩
        rw [htaken', hready, Option.toList_none, List.nil_append, List.append_nil]
      cases answer with
      | delivered d message => exact absurd rfl (hanswer d message)
      | waiting => exact .of_waiting hr ht hready
      | ended =>
        simp only [received?, System.heard, hreaders]
        exact stop .ended (by simp) rfl
      | failed e =>
        simp only [received?, System.heard, hreaders]
        exact stop (.failed e) (by simp) rfl
    | @message message rest _ hready hframe hrest' =>
      have hdeliveries : m'.deliveries = s.broker.deliveries ++ [⟨stream'.queue, message, false⟩] := by
        simpa using congrArg Memory.deliveries hframe
      simp only [received?, System.heard, hreaders]
      refine .of_befall (g := .holding stream s.broker.deliveries.length) hr htaken
        ⟨⟨?_, ⟨stream'.queue, message, false⟩, ?_, .inl rfl⟩, obeys_again (hobeys.next (.take _ _))⟩
        ⟨[], [], ?_, fun _ h => by cases h⟩
      · rw [hact]
        exact ⟨stream', hkeeps.streams _ _ hs, rfl⟩
      · simp [hact, hdeliveries]
      · simp [hact, Memory.ready, hready, hrest', messageIn]

/-- The lane asks for its stream. -/
theorem Passed.of_consume {channel : ChannelId} {exclusive : Bool}
    {next : Except TransportError StreamId → Consuming.Action (Lane ⊕ Except ConsumeError Unit)}
    (hr : s.readers = [r]) (htaken : r.taken = none)
    (hobeys : (Program.ask (Consuming.Request.session (.consume channel queue exclusive)) next).Obeys
      (Reads queue) Turned .aside) :
    Passed queue s { s.befall (.request (.consume channel queue exclusive)) with
      readers := [⟨again (next (Memory.answer (.consume channel queue exclusive) s.broker).1), none⟩] } := by
  have hc := Memory.answer_change (r := .consume channel queue exclusive) rfl rfl s.broker
  cases hopened : (Memory.answer (.consume channel queue exclusive) s.broker).1 with
  | error e =>
    exact .of_change (g := .aside) hr htaken rfl hc ⟨rfl, obeys_again (hobeys.next (.refused e))⟩
  | ok stream =>
    exact .of_change (g := .waiting stream) hr htaken rfl hc
      ⟨⟨rfl, _, Memory.streams_consume hopened, rfl⟩, obeys_again (hobeys.next (.consume stream))⟩

/-- A lane is told to stop, or has the stream asked. -/
theorem Passed.of_receive {stream : StreamId} {stops : List TokenId}
    {next : Consuming.Received → Consuming.Action (Lane ⊕ Except ConsumeError Unit)}
    (hr : s.readers = [r]) (htaken : r.taken = none)
    (ht : r.Tracks s.broker s.handled queue (.waiting stream))
    (hrest : r.rest = .ask (.receive stream stops) next)
    (others : (r : Consuming.Request) → Requests.Answer r) :
    Passed queue s (System.heard 0 (.receive stream stops) next
      (s.answer others (.receive stream stops))) := by
  have hask := Passed.of_ask hr htaken ht hrest
  have hobeys := ht.obeys
  rw [hrest] at hobeys
  simp only [System.answer]
  cases others (.receive stream stops) with
  | stopped =>
    simp only [System.heard, hr]
    exact .of_others (g := .aside) hr htaken rfl ⟨rfl, obeys_again (hobeys.next (.leave (by simp)))⟩
  | _ => exact hask

/-- What becomes of it when a lane goes on. -/
theorem read_passed (hr : s.readers = [r]) (ht : r.Tracks s.broker s.handled queue g)
    (others : (r : Consuming.Request) → Requests.Answer r) : Passed queue s (s.read 0 others) := by
  have hget : s.readers[0]? = some r := by rw [hr]; rfl
  cases htaken : r.taken with
  | some message =>
    simp only [System.read, hget, htaken]
    rw [hr]
    exact .of_taken hr ht htaken
  | none =>
    cases hrest : r.rest with
    | done result =>
      simp only [System.read, hget, htaken, hrest]
      exact .of_trail (.inl rfl) hr ht rfl
    | ask request next =>
      have hobeys := ht.obeys
      rw [hrest] at hobeys
      have hreaders : ∀ activity, (s.befall activity).readers = [r] := fun _ => hr
      obtain ⟨a, g', hm⟩ := hobeys.allowed
      simp only [System.read, hget, htaken, hrest]
      cases hm with
      | @talk request h a =>
        simp only [System.answer, System.heard, hreaders]
        exact .of_change (g := .aside) hr htaken rfl (change_of_isPlain h _)
          ⟨rfl, obeys_again (hobeys.next (.talk h _))⟩
      | consume =>
        simp only [System.answer, System.heard, hreaders]
        exact .of_consume hr htaken hobeys
      | refused =>
        simp only [System.answer, System.heard, hreaders]
        exact .of_consume hr htaken hobeys
      | take => exact .of_receive hr htaken ht hrest others
      | leave => exact .of_receive hr htaken ht hrest others
      | @handle stream delivery request a =>
        obtain ⟨hs, d, hd, hmessage⟩ := ht.at_reading
        simp only [System.answer, System.heard, hr]
        exact .of_others (g := .holding stream delivery) hr htaken rfl
          ⟨⟨hs, d, hd, .inr ⟨rfl, handled_of_holding htaken hmessage⟩⟩,
            obeys_again (hobeys.next (.handle _))⟩
      | @ack stream delivery a =>
        obtain ⟨hs, -⟩ := ht.at_reading
        have hkeeps := Memory.keeps_answer (.ack delivery) s.broker
        simp only [System.answer, System.heard, hreaders]
        exact .of_change (g := .waiting stream) hr htaken rfl (Memory.answer_change rfl rfl _)
          ⟨⟨rfl, hs.keeps hkeeps⟩, obeys_again (hobeys.next (.ack _))⟩
      | @nack stream delivery requeue a =>
        obtain ⟨hs, d, hd, hmessage⟩ := ht.at_reading
        have hkeeps := Memory.keeps_answer (.nack delivery requeue) s.broker
        simp only [System.answer, System.heard, hreaders]
        exact .of_nack (g := .waiting stream) hr htaken rfl hd (handled_of_holding htaken hmessage)
          ⟨⟨rfl, hs.keeps hkeeps⟩, obeys_again (hobeys.next (.nack _))⟩

end Delivery

end Courier
