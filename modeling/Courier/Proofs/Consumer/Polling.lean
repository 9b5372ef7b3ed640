import Courier.Proofs.Consumer.Course
import Courier.Proofs.Memory.Streams
import Mathlib.Data.List.Induction

/-!
# Groups at work, by the steps of a poll

In `Serving.System` a lane asks its stream at once. Here it does so in steps, between which anything may
happen: it looks at its tokens and listens to them, and looks what its stream has; if the queue was
empty, it lies down, and if it then takes a wake-up that was kept, it looks again, in the same poll and
so without another look at its tokens. One that has lain down rests until its stream or a token wakes
it. All else is as in `Serving.System`, whose state is the `base`.

`Good` says that the invariant of the base holds between the steps, too, and that a lane in the midst of
a poll is ready, and known to no queue. What a poll does to the waiters and the messages of its queue is
`Polled`.
-/

namespace Courier.Polling

open Consuming (Request)
open Delivery (received?)
open Memory (Activity Shelved)
open Serving (Asleep Aside Befell LaneAt LaneGood Owner Worker)

/-- How far a lane is with a poll of its stream. -/
inductive Look where
  /-- It has not begun one. -/
  | rests
  /-- It has found its queue empty, and lies down next. -/
  | empty
  /-- It has taken a wake-up that was kept, and looks again next. -/
  | awake
  deriving DecidableEq

structure System where
  base : Serving.System := {}
  looks : Nat → Look := fun _ => .rests

/-! ## Steps -/

namespace System

/-- The lane is so far now. -/
def goTo (s : System) (j : Nat) (look : Look) (base : Serving.System) : System :=
  { base, looks := Function.update s.looks j look }

section Steps

variable (s : System) (j : Nat) (lane : Worker) (stream : StreamId) (stops : List TokenId)
  (next : Requests.Answer (Request.receive stream stops) →
    Consuming.Action (Lane ⊕ Except ConsumeError Unit))

/-- A lane looks what its stream has. -/
def look : System :=
  let base := s.base.befall (some (.lane j)) (.look stream)
  match received? (s.base.broker.look stream).1 with
  | some received =>
    s.goTo j .rests (Serving.System.hearLane j lane next (some received, base.unregister j stops))
  | none =>
    if s.base.broker.sleeps stream then s.goTo j .rests (base.rest j)
    else s.goTo j .empty (base.wake [j])

/-- A lane that has found nothing lies down. If a token was cancelled since it has looked at them, that
has woken it. -/
def lieDown : System :=
  let base := s.base.befall (some (.lane j)) (.lieDown stream)
  if (s.base.broker.lieDown stream).1 then
    s.goTo j .rests (if stops.any s.base.tokens.isCancelled then base.wake [j] else base.rest j)
  else s.goTo j .awake (base.wake [j])

/-- The next step of a poll. -/
def poll : System :=
  match s.looks j with
  | .rests =>
    if stops.any s.base.tokens.isCancelled then
      s.goTo j .rests
        (Serving.System.hearLane j lane next (some .stopped, s.base.unregister j stops))
    else { s with base := s.base.register j stops }.look j lane stream stops next
  | .empty => s.lieDown j stream stops
  | .awake => s.look j lane stream stops next

end Steps

variable (s : System)

def runLane (j : Nat) (answer : (r : Handler.Request) → Requests.Answer r) : System :=
  match s.base.lanes[j]? with
  | none => s
  | some lane =>
    match lane.rest with
    | .ask (.receive stream stops) next => s.poll j lane stream stops next
    | _ => { s with base := s.base.runLane j answer }

def step : Serving.Event → System
  | .lane j answer => s.runLane j answer
  | e => { s with base := s.base.step e }

/-- Any interleaving of events. -/
def after (events : List Serving.Event) : System :=
  events.foldl step s

end System

/-! ## In the midst of a poll -/

variable {s s' : System} {b b' : Serving.System} {j k : Nat} {lane : Worker} {queue : String}
  {stream : StreamId} {stops : List TokenId}
  {next : Requests.Answer (Request.receive stream stops) →
    Consuming.Action (Lane ⊕ Except ConsumeError Unit)}

/-- A lane in the midst of a poll is ready, and its stream is known to no queue. -/
def Midst (b : Serving.System) (j : Nat) : Prop :=
  j ∈ b.ready ∧ ∃ stream, b.Receives j stream ∧
    ∀ queue, stream ∉ (b.broker.waiters queue).known

/-- What holds between any two steps. -/
structure Good (s : System) : Prop where
  base : Serving.Good none s.base
  midst : ∀ j, s.looks j ≠ .rests → Midst s.base j

/-- A lane that is to receive has a stream of its queue. -/
theorem reading (h : Serving.Good none b) (hget : b.lanes[j]? = some lane)
    (hrest : lane.rest = .ask (.receive stream stops) next) :
    stops = lane.stops ∧ b.maker (.stream stream) = some (.lane j) ∧
      ∃ c, LaneGood b j lane (.reading c stream) ∧
        b.broker.streams[stream]? = some ⟨c, lane.queue⟩ ∧ b.broker.queueExists lane.queue = true := by
  obtain ⟨place, hgood⟩ := h.lane j lane hget nofun
  obtain ⟨hstops, c, rfl⟩ := hgood.reads hrest
  obtain ⟨hmine, c', hc, hstream⟩ := hgood.has.stream stream rfl
  cases hc
  exact ⟨hstops, hmine, c, hgood, hstream,
    Memory.queueExists_after b.history _ (List.mem_of_getElem? hstream)⟩

theorem Midst.unknown (h : Midst b j) (hget : b.lanes[j]? = some lane)
    (hrest : lane.rest = .ask (.receive stream stops) next) (queue : String) :
    stream ∉ (b.broker.waiters queue).known := by
  obtain ⟨-, stream', ⟨lane', stops', next', hget', hrest'⟩, hunknown⟩ := h
  obtain rfl := Option.some.inj (hget.symm.trans hget')
  cases hrest.symm.trans hrest'
  exact hunknown queue

/-- What another one does leaves a lane in the midst of its poll. -/
theorem Midst.aside (h : Midst b j) (hgood : Serving.Good none b) {owner : Option Owner}
    (hbefell : Befell owner b b') (haside : Aside j b b') (hne : owner ≠ some (.lane j)) :
    Midst b' j := by
  obtain ⟨hready, stream, hreceives, hunknown⟩ := h
  obtain ⟨lane, stops, next, hget, hrest⟩ := hreceives
  have hmine := (reading hgood hget hrest).2.1
  refine ⟨haside.ready hready, stream, ⟨lane, stops, next, haside.lane lane hget, hrest⟩,
    fun queue => ?_⟩
  cases hbefell with
  | none hhistory => rw [Serving.broker_eq hhistory]; exact hunknown queue
  | one a hmay _ hhistory =>
    have happart : a.handle? ≠ some (.stream stream) := fun hhandle => hne (by
      rw [← hmay _ hhandle, hmine])
    rw [Serving.broker_of_history hhistory]
    exact fun hmem => hunknown queue (hgood.sane.known_act hmem (.inl happart))

/-! ## What a poll does -/

/-- What a step of a poll does to the waiters and the messages of its queue, by how far the lane was and
is then. -/
inductive Polled (m : Memory) (queue : String) (stream : StreamId) : Look → Look → Memory → Prop where
  | nothing : Polled m queue stream .rests .rests m
  | taken {look : Look} {message : Message} {rest : List Message} {m' : Memory} (hlook : look ≠ .empty)
      (hready : m.ready queue = message :: rest)
      (h : Shelved m queue ((m.waiters queue).rouse stream) rest m') :
      Polled m queue stream look .rests m'
  | empty {look : Look} {m' : Memory} (hlook : look ≠ .empty) (hready : m.ready queue = [])
      (h : Shelved m queue ((m.waiters queue).rouse stream) [] m') :
      Polled m queue stream look .empty m'
  | lain {m' : Memory} (hpermit : (m.waiters queue).permit = false)
      (h : Shelved m queue { m.waiters queue with waiting := (m.waiters queue).waiting ++ [stream] }
        (m.ready queue) m') : Polled m queue stream .empty .rests m'
  | took {m' : Memory} (hpermit : (m.waiters queue).permit = true)
      (h : Shelved m queue { m.waiters queue with permit := false } (m.ready queue) m') :
      Polled m queue stream .empty .awake m'

/-- A lane of a queue has done a step of its poll. -/
structure Stepped (j : Nat) (queue : String) (stream : StreamId) (s s' : System) : Prop where
  good : Serving.Good none s'.base
  befell : Befell (some (.lane j)) s.base s'.base
  others : ∀ k ≠ j, Aside k s.base s'.base ∧ s'.looks k = s.looks k
  polled : Polled s.base.broker queue stream (s.looks j) (s'.looks j) s'.base.broker
  midst : s'.looks j ≠ .rests → s'.base.lanes = s.base.lanes ∧ Midst s'.base j

theorem looks_goTo (s : System) (j : Nat) (look : Look) (base : Serving.System) :
    (s.goTo j look base).looks j = look := by
  show Function.update s.looks j look j = look
  rw [Function.update_self]

theorem stepped_goTo {look : Look} (hgood : Serving.Good none b)
    (hbefell : Befell (some (.lane j)) s.base b) (haside : ∀ k ≠ j, Aside k s.base b)
    (hpolled : Polled s.base.broker queue stream (s.looks j) look b.broker)
    (hmidst : look ≠ .rests → b.lanes = s.base.lanes ∧ Midst b j) :
    Stepped j queue stream s (s.goTo j look b) where
  good := hgood
  befell := hbefell
  others k hk := by
    refine ⟨haside k hk, ?_⟩
    show Function.update s.looks j look k = s.looks k
    rw [Function.update_of_ne hk]
  polled := by
    rw [looks_goTo]
    exact hpolled
  midst := by
    rw [looks_goTo]
    exact hmidst

theorem Stepped.toGood (h : Stepped j queue stream s s') (hs : Good s) : Good s' where
  base := h.good
  midst k hk := by
    by_cases hkj : k = j
    · subst hkj
      exact (h.midst hk).2
    · obtain ⟨haside, hlook⟩ := h.others k hkj
      refine (hs.midst k (hlook ▸ hk)).aside hs.base h.befell haside fun heq => hkj ?_
      cases heq
      rfl

section Steps

variable (h : Good s) (hget : s.base.lanes[j]? = some lane)
  (hrest : lane.rest = .ask (.receive stream stops) next)

include h hget hrest

/-- A lane finds one of its tokens cancelled. -/
theorem stepped_stop (hlook : s.looks j = .rests) :
    Stepped j lane.queue stream s (s.goTo j .rests (Serving.System.hearLane j lane next
      (some .stopped, s.base.unregister j stops))) := by
  obtain ⟨rfl, -, c, hgood, -, -⟩ := reading h.base hget hrest
  have hstill : Befell (some (.lane j)) s.base (s.base.unregister j lane.stops) := .none rfl rfl
  have hheard := Serving.history_hearLane j lane next (some .stopped, s.base.unregister j lane.stops)
  refine stepped_goTo (Serving.good_stop h.base hget hgood hrest rfl) (hstill.hear j lane next)
    (fun k hk => ?_) ?_ nofun
  · exact Aside.hear hk lane next (Serving.aside_of_lanes rfl fun _ h => h)
  · rw [Serving.broker_eq hheard.1, hlook]
    exact .nothing

/-- A lane looks what its stream has. -/
theorem stepped_look (hlook : s.looks j ≠ .empty) :
    Stepped j lane.queue stream s (s.look j lane stream stops next) := by
  obtain ⟨rfl, hmine, c, hgood, hstream, hthere⟩ := reading h.base hget hrest
  have hopen := (hgood.has.channels.mine c rfl).2
  have hbefell := Serving.befell_poll h.base hget hrest (a := .look stream) rfl
  have hbefall := h.base.befall_lane hget (a := .look stream) fun o ho => by
    cases ho
    exact hmine
  have hlooked := h.base.sane.looked_look hstream
  have hfound := Memory.found s.base.broker hstream
  have hsleeps := Memory.sleeps_iff hstream
  have hact : (s.base.befall (some (.lane j)) (.look stream)).broker =
      (s.base.broker.look stream).2 := Serving.broker_befall ..
  have hmade : Activity.made s.base.broker (.look stream) = (s.base.broker.look stream).1.handle? := rfl
  have hpolls : Activity.polls? (.look stream) = some stream := rfl
  -- a lane that has found nothing has what it had
  have hhas : (s.base.broker.look stream).1 = .waiting →
      LaneAt (s.base.befall (some (.lane j)) (.look stream)).broker
        (s.base.befall (some (.lane j)) (.look stream)).maker j lane.queue (.reading c stream) :=
    fun hwaiting => by
      rw [Serving.broker_befall]
      exact hgood.has.poll h.base.sane s.base.known hpolls (by rw [hmade, hwaiting]; rfl) (.inl rfl)
  unfold System.look
  generalize s.base.broker.look stream = answer at hlooked hfound hact hmade hhas ⊢
  cases hfound with
  | asleep hw =>
    have hrests : s.looks j = .rests := by
      by_contra hmidst
      exact (h.midst j hmidst).unknown hget hrest lane.queue (Notify.mem_known.mpr (.inl hw))
    simp only [received?, if_pos (hsleeps.mpr hw)]
    refine stepped_goTo (hbefall.rest hget hgood.obeys hgood.turned (hhas rfl) ⟨c, stream, rfl, ?_⟩)
      (hbefell.then rfl rfl) (fun k hk => (Serving.aside_befall _ _ _).trans (Serving.aside_rest hk _))
      ?_ nofun
    · rw [hact]
      exact hw
    · rw [hrests, Serving.broker_rest, hact]
      exact .nothing
  | missing hnone =>
    rw [Memory.queueExists, hnone] at hthere
    cases hthere
  | past hclosed => exact absurd (hopen.symm.trans hclosed) (by decide)
  | @taken _ message _ hw hready hshelved =>
    have hheard := Serving.history_hearLane j lane next
      (some (.delivered s.base.broker.deliveries.length message),
        (s.base.befall (some (.lane j)) (.look stream)).unregister j lane.stops)
    refine stepped_goTo (Serving.good_received h.base hget hgood hrest rfl hpolls hlooked hmade rfl)
      (Befell.hear j lane next (hbefell.then rfl rfl)) (fun k hk => Aside.hear hk lane next
        ((Serving.aside_befall _ _ _).trans (Serving.aside_of_lanes rfl fun _ h => h))) ?_ nofun
    rw [Serving.broker_eq hheard.1]
    exact .taken hlook hready (hact ▸ hshelved)
  | empty _ hw hready hshelved =>
    have hunknown := h.base.sane.not_mem_known_shelved hstream hw hshelved
    simp only [received?, if_neg fun hsleeping => hw (hsleeps.mp hsleeping)]
    refine stepped_goTo (hbefall.wake hget hgood.obeys hgood.turned (hhas rfl)) (hbefell.then rfl rfl)
      (fun k _ => (Serving.aside_befall _ _ _).trans (Serving.aside_wake _ _)) ?_ fun _ => ?_
    · rw [Serving.broker_wake, hact]
      exact .empty hlook hready hshelved
    · refine ⟨rfl, List.mem_append_right _ (List.mem_singleton_self j), stream,
        ⟨lane, lane.stops, next, hget, hrest⟩, fun queue => ?_⟩
      rw [Serving.broker_wake, hact]
      exact hunknown queue

/-- A lane that has found nothing lies down. -/
theorem stepped_lieDown (hlook : s.looks j = .empty) :
    Stepped j lane.queue stream s (s.lieDown j stream stops) := by
  obtain ⟨rfl, hmine, c, hgood, hstream, hthere⟩ := reading h.base hget hrest
  have hunknown := (h.midst j (by rw [hlook]; decide)).unknown hget hrest
  have hbefell := Serving.befell_poll h.base hget hrest (a := .lieDown stream) rfl
  have hbefall := h.base.befall_lane hget (a := .lieDown stream) fun o ho => by
    cases ho
    exact hmine
  have hlain := Memory.lain s.base.broker hstream
  have hact : (s.base.befall (some (.lane j)) (.lieDown stream)).broker =
      (s.base.broker.lieDown stream).2 := Serving.broker_befall ..
  have hhas : LaneAt (s.base.befall (some (.lane j)) (.lieDown stream)).broker
      (s.base.befall (some (.lane j)) (.lieDown stream)).maker j lane.queue (.reading c stream) := by
    rw [Serving.broker_befall]
    exact hgood.has.poll h.base.sane s.base.known rfl rfl (.inl rfl)
  have hwake := hbefall.wake hget hgood.obeys hgood.turned hhas
  have haside : ∀ k, Aside k s.base (s.base.befall (some (.lane j)) (.lieDown stream)) :=
    fun k => Serving.aside_befall _ _ _
  unfold System.lieDown
  generalize s.base.broker.lieDown stream = answer at hlain hact ⊢
  cases hlain with
  | missing hnone =>
    rw [Memory.queueExists, hnone] at hthere
    cases hthere
  | known hknown => exact absurd hknown (hunknown lane.queue)
  | lain _ hpermit hshelved =>
    have hpolled : Polled s.base.broker lane.queue stream (s.looks j) .rests
        (s.base.befall (some (.lane j)) (.lieDown stream)).broker := by
      rw [hact, hlook]
      exact .lain hpermit hshelved
    simp only [if_true]
    split
    · exact stepped_goTo hwake (hbefell.then rfl rfl)
        (fun k _ => (haside k).trans (Serving.aside_wake _ _)) hpolled fun h => absurd rfl h
    · refine stepped_goTo (hbefall.rest hget hgood.obeys hgood.turned hhas ⟨c, stream, rfl, ?_⟩)
        (hbefell.then rfl rfl) (fun k hk => (haside k).trans (Serving.aside_rest hk _)) hpolled
        fun h => absurd rfl h
      rw [hact, hshelved.waiters]
      exact List.mem_append_right _ (List.mem_singleton_self stream)
  | took _ hpermit hshelved =>
    refine stepped_goTo hwake (hbefell.then rfl rfl)
      (fun k _ => (haside k).trans (Serving.aside_wake _ _)) ?_ fun _ => ?_
    · rw [Serving.broker_wake, hact, hlook]
      exact .took hpermit hshelved
    · refine ⟨rfl, List.mem_append_right _ (List.mem_singleton_self j), stream,
        ⟨lane, lane.stops, next, hget, hrest⟩, fun queue => ?_⟩
      rw [Serving.broker_wake, hact]
      by_cases hname : queue = lane.queue
      · rw [hname, hshelved.waiters]
        exact hunknown lane.queue
      · rw [(hshelved.others queue hname).1]
        exact hunknown queue

/-- A lane does the next step of its poll. -/
theorem stepped_poll : Stepped j lane.queue stream s (s.poll j lane stream stops next) := by
  unfold System.poll
  split
  · rename_i hlook
    split
    · exact stepped_stop h hget hrest hlook
    · -- to listen to tokens changes nothing that matters here
      have hlistens : Good { s with base := s.base.register j stops } :=
        ⟨h.base.register j stops, fun k hk => h.midst k hk⟩
      have hstepped := stepped_look hlistens hget hrest (by rw [hlook]; decide)
      refine ⟨hstepped.good, ?_, fun k hk => ?_, hstepped.polled, hstepped.midst⟩
      · cases hstepped.befell with
        | none hhistory hmaker => exact .none hhistory hmaker
        | one a hmay hreceives hhistory hmaker => exact .one a hmay hreceives hhistory hmaker
      · obtain ⟨haside, hsame⟩ := hstepped.others k hk
        exact ⟨⟨haside.lane, haside.ready⟩, hsame⟩
  · exact stepped_lieDown h hget hrest ‹_›
  · exact stepped_look h hget hrest (by rw [‹s.looks j = .awake›]; decide)

end Steps

/-! ## All events -/

/-- An event is a step of a poll, or one of the base, and then not of a lane that is to receive. -/
theorem step_cases (s : System) (e : Serving.Event) :
    (∃ j lane stream stops next, s.base.lanes[j]? = some lane ∧
      lane.rest = .ask (.receive stream stops) next ∧
      s.step e = s.poll j lane stream stops next) ∨
    (s.step e = { s with base := s.base.step e } ∧
      ∀ j stream, e.owner? = some (.lane j) → ¬s.base.Receives j stream) := by
  cases e with
  | lane j w =>
    simp only [System.step, System.runLane]
    cases hget : s.base.lanes[j]? with
    | none =>
      refine .inr ⟨?_, fun k stream hk hreceives => ?_⟩
      · simp only [Serving.System.step, Serving.System.runLane, hget]
      · cases hk
        obtain ⟨lane, stops, next, hget', -⟩ := hreceives
        cases hget.symm.trans hget'
    | some lane =>
      dsimp only
      split
      · rename_i stream stops next hrest
        exact .inl ⟨j, lane, stream, stops, next, hget, hrest, rfl⟩
      · rename_i hother
        refine .inr ⟨rfl, fun k stream hk hreceives => ?_⟩
        cases hk
        obtain ⟨lane', stops, next, hget', hrest⟩ := hreceives
        obtain rfl := Option.some.inj (hget.symm.trans hget')
        exact hother stream stops next hrest
  | _ => exact .inr ⟨rfl, fun _ _ h => by cases h⟩

/-- A lane in the midst of a poll does nothing but go on with it. -/
theorem Good.apart (h : Good s) {e : Serving.Event}
    (hother : ∀ j stream, e.owner? = some (.lane j) → ¬s.base.Receives j stream)
    (hk : s.looks k ≠ .rests) : e.owner? ≠ some (.lane k) := fun howner => by
  obtain ⟨-, stream, hreceives, -⟩ := h.midst k hk
  exact hother k stream howner hreceives

theorem Good.step (h : Good s) (e : Serving.Event) : Good (s.step e) := by
  rcases step_cases s e with ⟨j, lane, stream, stops, next, hget, hrest, hstep⟩ | ⟨hstep, hother⟩ <;>
    rw [hstep]
  · exact (stepped_poll h hget hrest).toGood h
  · refine ⟨h.base.step e, fun k hk => ?_⟩
    have howner := h.apart hother hk
    exact (h.midst k hk).aside h.base (Serving.befell_step h.base e)
      (Serving.aside_step s.base e howner) howner

theorem good_new : Good {} :=
  ⟨Serving.good_empty, fun _ h => absurd rfl h⟩

theorem good_after (events : List Serving.Event) : Good (({} : System).after events) := by
  induction events using List.reverseRecOn with
  | nil => exact good_new
  | append_singleton events e ih =>
    rw [System.after, List.foldl_append]
    exact ih.step e

end Courier.Polling
