import Courier.Proofs.Consumer.Holdings
import Courier.Proofs.Lists
import Courier.Proofs.Tokens

/-!
# What holds of groups at work

`Good none` holds after any events. Each lane is in a place of its protocol, has there what belongs
to it, and can go on, has ended or sleeps where it reads (`LaneGood`). Each run is at a stage of its
own (`RunGood`): as long as it declares it has no lanes, then its lanes have a token that is
cancelled with the one of the run, and when it has returned they have all ended.

In the middle of an event the invariant does not hold of the lane or the run that the event is of:
`Good x` leaves out `x`. The parts of which events are made keep it (`Good.befall`, `Good.frame`),
and one that sets a lane or a run puts it back (`Good.goOn`, `Good.setRun`).
-/

namespace Courier.Serving

open Memory (Activity)
open Tokens (Later)
open Delivery (again)

variable {s s' : System} {x : Option Owner} {i j : Nat} {run run' : Run} {lane lane' : Worker}
  {place : Place} {stage : Stage} {gone : Option TokenId}

/-! ## The broker of a system -/

theorem System.broker_balanced (s : System) : Memory.Balanced s.broker s.account :=
  Memory.balanced_empty.after s.history

theorem System.known (s : System) : ∀ d ∈ s.broker.deliveries, s.broker.queueExists d.queue = true :=
  s.broker_balanced.known

@[simp] theorem broker_befall (s : System) (x : Option Owner) (a : Activity) :
    (s.befall x a).broker = s.broker.act a :=
  List.foldl_append

@[simp] theorem broker_rest (s : System) (j : Nat) : (s.rest j).broker = s.broker := rfl

@[simp] theorem broker_wake (s : System) (lanes : List Nat) : (s.wake lanes).broker = s.broker := rfl

theorem broker_eq (h : s'.history = s.history) : s'.broker = s.broker := by
  rw [System.broker, h, System.broker]

/-! ## Lanes -/

/-- The lane sleeps until its stream wakes it. -/
def Asleep (s : System) (lane : Worker) (place : Place) : Prop :=
  ∃ c stream, place = .reading c stream ∧ stream ∈ (s.broker.waiters lane.queue).waiting

/-- What holds of a lane. -/
structure LaneGood (s : System) (j : Nat) (lane : Worker) (place : Place) : Prop where
  obeys : lane.rest.Obeys (Moves lane.consumer.config lane.stops) (Turned lane.stops) place
  turned : ∀ reading, lane.rest ≠ .done (.inl reading)
  has : LaneAt s.broker s.maker j lane.queue place
  settled : j ∈ s.ready ∨ lane.finished = true ∨ Asleep s lane place

theorem Asleep.of_history (h : Asleep s lane place) (hhistory : s'.history = s.history) :
    Asleep s' lane place := by
  obtain ⟨c, stream, hplace, hmem⟩ := h
  exact ⟨c, stream, hplace, by rwa [broker_eq hhistory]⟩

/-- A lane that has ended has nothing any more. -/
theorem LaneGood.ended (h : LaneGood s j lane place) (hfinished : lane.finished = true) :
    place = .ended := by
  have hobeys := h.obeys
  have hturned := h.turned
  unfold Worker.finished at hfinished
  cases hrest : lane.rest with
  | ask r next =>
    rw [hrest] at hfinished
    cases hfinished
  | done result =>
    rw [hrest] at hobeys hturned
    rcases result with reading | result
    · exact absurd rfl (hturned reading)
    · exact hobeys

/-! ## Runs -/

/-- The channel on which all is declared. -/
def Stage.channel? : Stage → Option ChannelId
  | .declaring c _ _ => some c
  | _ => none

namespace Run

/-- A declaration has failed if the result says so. -/
def Told (run : Run) : Except ConsumeError Unit → Prop
  | .ok () => run.refused = none
  | .error e => ∃ queue te, e = .declare queue te ∧ run.refused = some te ∧
      (declarations run.group.consumers)[run.declared]? = some queue

/-- All its declarations were accepted. -/
def Accepted (run : Run) : Prop :=
  run.refused = none ∧ run.declared = (declarations run.group.consumers).length

/-- The run later on. -/
structure Follows (run run' : Run) : Prop where
  group : run'.group = run.group
  cancel : run'.cancel = run.cancel
  delivery : run'.delivery = run.delivery

/-- The same run, further on or with more ends to look at. -/
def Alike (run run' : Run) : Prop :=
  run' = { run with rest := run'.rest, ended := run'.ended }

end Run

/-- Something holds of all lanes of a run. -/
def System.AllLanes (s : System) (i : Nat) (P : Worker → Prop) : Prop :=
  ∀ lane ∈ s.lanes, lane.run = i → P lane

/-- Where a run is, and its lanes with it. -/
def RunAt (s : System) (i : Nat) (run : Run) : Stage → Prop
  | .fresh => s.AllLanes i (fun _ => False) ∧ run.declared = 0 ∧ run.refused = none
  | .declaring _ todo result => s.AllLanes i (fun _ => False) ∧ run.Told result ∧
      (result = .ok () → run.declared ≤ (declarations run.group.consumers).length ∧
        todo = (declarations run.group.consumers).drop run.declared)
  | .closed _ result => s.AllLanes i (fun _ => False) ∧ run.Told result ∧
      (result = .ok () → run.Accepted)
  | .declared => s.AllLanes i (fun _ => False) ∧ run.Accepted
  | .running lanes _ => run.Accepted ∧ s.stopper lanes = some i ∧
      s.tokens.Linked run.cancel lanes ∧
      s.AllLanes i fun lane => lane.stops = [lanes, run.delivery]
  | .leaving lanes => run.Accepted ∧ s.stopper lanes = some i ∧
      s.AllLanes i fun lane => lane.finished = true
  | .ended => run.Accepted ∧ s.AllLanes i fun lane => lane.finished = true
  | .refused e => s.AllLanes i (fun _ => False) ∧ run.Told (.error e)

/-- What holds of a run. -/
structure RunGood (s : System) (i : Nat) (run : Run) (stage : Stage) : Prop where
  obeys : run.rest.Obeys (Runs i run.group run.cancel run.delivery) (Progressed i) stage
  turned : ∀ running, run.rest ≠ .done (.inl running)
  root : s.tokens.Root run.cancel
  delivery : s.tokens.Exists run.delivery
  channels : Holds s.broker s.maker (.run i) stage.channel?
  closed : ∀ c result, stage = .closed c result → s.maker (.channel c) = some (.run i)
  deliveries : ∀ delivery, s.maker (.delivery delivery) ≠ some (.run i)
  stage : RunAt s i run stage

/-- All lanes of a run are there from before, and those that had ended still have. -/
def Continues (s s' : System) (i : Nat) : Prop :=
  ∀ lane' ∈ s'.lanes, lane'.run = i → ∃ lane ∈ s.lanes, lane.run = i ∧ lane'.stops = lane.stops ∧
    (lane.finished = true → lane'.finished = true)

theorem continues_of_lanes (h : s'.lanes = s.lanes) (i : Nat) : Continues s s' i :=
  fun lane hlane hrun => ⟨lane, h ▸ hlane, hrun, rfl, id⟩

theorem System.AllLanes.continues {P : Worker → Prop} (h : s.AllLanes i P) (hc : Continues s s' i)
    (hP : ∀ lane lane' : Worker, lane'.stops = lane.stops →
      (lane.finished = true → lane'.finished = true) → P lane → P lane') : s'.AllLanes i P := by
  intro lane' hlane' hrun
  obtain ⟨lane, hlane, hrun', hstops, hfinished⟩ := hc lane' hlane' hrun
  exact hP lane lane' hstops hfinished (h lane hlane hrun')

theorem RunAt.mono (h : RunAt s i run stage) (hlanes : Continues s s' i)
    (hstopper : ∀ token, s.stopper token = some i → s'.stopper token = some i)
    (hlinked : ∀ token, s.stopper token = some i → s.tokens.Linked run.cancel token →
      s'.tokens.Linked run.cancel token) : RunAt s' i run stage := by
  have nobody : s.AllLanes i (fun _ => False) → s'.AllLanes i fun _ => False :=
    fun h => h.continues hlanes fun _ _ _ _ hP => hP
  have finished : (s.AllLanes i fun lane => lane.finished = true) →
      s'.AllLanes i fun lane => lane.finished = true :=
    fun h => h.continues hlanes fun _ _ _ hfinished hP => hfinished hP
  cases stage with
  | running lanes todo =>
    obtain ⟨htold, hmine, hl, hall⟩ := h
    exact ⟨htold, hstopper lanes hmine, hlinked lanes hmine hl,
      hall.continues hlanes fun _ _ hstops _ hP => hstops.trans hP⟩
  | leaving lanes => exact ⟨h.1, hstopper lanes h.2.1, finished h.2.2⟩
  | ended => exact ⟨h.1, finished h.2⟩
  | _ => exact ⟨nobody h.1, h.2⟩

theorem RunAt.of_alike (h : RunAt s i run stage) (hrun : run.Alike run') : RunAt s i run' stage := by
  rw [hrun]
  cases stage <;> exact h

/-! ## All of them -/

/-- There is such a lane or such a run. -/
def Owner.In (s : System) : Owner → Prop
  | .run i => i < s.runs.length
  | .lane j => j < s.lanes.length

/-- What holds of a system, but for one lane or run that an event is of. -/
structure Good (x : Option Owner) (s : System) : Prop where
  sane : Sane s.broker s.maker
  proper : s.tokens.Proper
  owners : ∀ h o, s.maker h = some o → o.In s
  stoppers : ∀ token i, s.stopper token = some i → s.tokens.Exists token
  runs : ∀ lane ∈ s.lanes, lane.run < s.runs.length
  lane : ∀ j lane, s.lanes[j]? = some lane → x ≠ some (.lane j) → ∃ place, LaneGood s j lane place
  run : ∀ i run, s.runs[i]? = some run → x ≠ some (.run i) → ∃ stage, RunGood s i run stage

theorem Good.except (h : Good none s) (x : Option Owner) : Good x s where
  sane := h.sane
  proper := h.proper
  owners := h.owners
  stoppers := h.stoppers
  runs := h.runs
  lane j lane hget _ := h.lane j lane hget nofun
  run i run hget _ := h.run i run hget nofun

theorem good_empty : Good none {} where
  sane := sane_empty
  proper := Tokens.proper_empty
  owners _ _ h := by cases h
  stoppers _ _ h := by cases h
  runs _ h := by cases h
  lane _ _ h := by cases h
  run _ _ h := by cases h

/-! ## Parts of events -/

theorem reader?_eq {stream : StreamId} (h : s.maker (.stream stream) = some (.lane j)) :
    s.reader? stream = some j := by
  rw [System.reader?, h]

theorem mem_ready_befall {a : Activity} (h : j ∈ s.ready) : j ∈ (s.befall x a).ready :=
  List.mem_append_left _ h

/-- Whoever is woken by an activity can go on. -/
theorem mem_ready_of_woken {a : Activity} {stream : StreamId}
    (hmine : s.maker (.stream stream) = some (.lane j))
    (hwoken : stream ∈ (s.broker.act a).woken.drop s.broker.woken.length) :
    j ∈ (s.befall x a).ready :=
  List.mem_append_right _ (List.mem_filterMap.mpr ⟨stream, hwoken, reader?_eq hmine⟩)

theorem LaneGood.of_other (h : LaneGood s j lane place) (hs : Sane s.broker s.maker) {a : Activity}
    (hmay : May s.maker x a) (hne : x ≠ some (.lane j)) :
    LaneGood (s.befall x a) j lane place where
  obeys := h.obeys
  turned := h.turned
  has := by
    rw [broker_befall]
    exact h.has.of_other hs s.known hmay hne
  settled := by
    rcases h.settled with hready | hfinished | ⟨c, stream, rfl, hmem⟩
    · exact .inl (mem_ready_befall hready)
    · exact .inr (.inl hfinished)
    · have hmine := (h.has.stream stream rfl).1
      have happart : a.handle? ≠ some (.stream stream) := fun hhandle => hne (by
        rw [← hmay _ hhandle, hmine])
      rcases hs.asleep_act hmem happart with hsleeps | hwoken
      · exact .inr (.inr ⟨c, stream, rfl, by rwa [broker_befall]⟩)
      · exact .inl (mem_ready_of_woken hmine hwoken)

/-- Something befalls the broker, done by the one who is left out. -/
theorem Good.befall (h : Good x s) {a : Activity} (hmay : May s.maker x a)
    (hx : ∀ o, x = some o → o.In s) : Good x (s.befall x a) where
  sane := by
    rw [broker_befall]
    exact h.sane.act
  proper := h.proper
  owners o' o hmade := by
    rcases h.sane.made_eq_some.mp hmade with hold | ⟨-, hnew⟩
    · exact h.owners o' o hold
    · exact hx o hnew
  stoppers := h.stoppers
  runs := h.runs
  lane j lane hget hne := by
    obtain ⟨place, hgood⟩ := h.lane j lane hget hne
    exact ⟨place, hgood.of_other h.sane hmay hne⟩
  run i run hget hne := by
    obtain ⟨stage, hgood⟩ := h.run i run hget hne
    refine ⟨stage, hgood.obeys, hgood.turned, hgood.root, hgood.delivery, ?_,
      fun c result hc => h.sane.made_eq_some.mpr (.inl (hgood.closed c result hc)),
      fun delivery hmade => ?_,
      hgood.stage.mono (continues_of_lanes rfl i) (fun _ h => h) fun _ _ h => h⟩
    · rw [broker_befall]
      exact hgood.channels.of_other h.sane hmay hne
    · exact hgood.deliveries delivery ((h.sane.made_other hne).mp hmade)

theorem LaneGood.frame (h : LaneGood s j lane place) (hhistory : s'.history = s.history)
    (hmaker : s'.maker = s.maker) (hready : j ∈ s.ready → j ∈ s'.ready) :
    LaneGood s' j lane place where
  obeys := h.obeys
  turned := h.turned
  has := by
    rw [broker_eq hhistory, hmaker]
    exact h.has
  settled := h.settled.imp hready (.imp_right (·.of_history hhistory))

theorem RunGood.frame (h : RunGood s i run stage) (hhistory : s'.history = s.history)
    (hmaker : s'.maker = s.maker) (htokens : Later gone s.tokens s'.tokens)
    (hlanes : Continues s s' i)
    (hstopper : ∀ token, s.stopper token = some i → s'.stopper token = some i)
    (hgone : ∀ token, gone = some token → s.stopper token ≠ some i) : RunGood s' i run stage where
  obeys := h.obeys
  turned := h.turned
  root := htokens.root _ h.root
  delivery := htokens.stays h.delivery
  channels := by
    rw [broker_eq hhistory, hmaker]
    exact h.channels
  closed c result hc := hmaker ▸ h.closed c result hc
  deliveries delivery := hmaker ▸ h.deliveries delivery
  stage := h.stage.mono hlanes hstopper fun token hmine =>
    htokens.linked _ _ fun heq => hgone token heq.symm hmine

theorem RunGood.of_alike (h : RunGood s i run stage) (hrest : run'.rest = run.rest)
    (hrun : run.Alike run') : RunGood s i run' stage := by
  have hstage := h.stage.of_alike hrun
  rw [hrun] at hstage ⊢
  rw [hrest]
  exact ⟨h.obeys, h.turned, h.root, h.delivery, h.channels, h.closed, h.deliveries, hrest ▸ hstage⟩

/-- The tokens change, and more lanes can go on. -/
theorem Good.mono (h : Good x s) (hhistory : s'.history = s.history) (hmaker : s'.maker = s.maker)
    (hlanes : s'.lanes = s.lanes) (hruns : s'.runs = s.runs) (htokens : Later gone s.tokens s'.tokens)
    (hgone : ∀ token i, gone = some token → s.stopper token = some i → x = some (.run i))
    (hstopper : ∀ token i, s.stopper token = some i → s'.stopper token = some i)
    (hstoppers : ∀ token i, s'.stopper token = some i → s'.tokens.Exists token)
    (hready : ∀ j, x ≠ some (.lane j) → j ∈ s.ready → j ∈ s'.ready) : Good x s' where
  sane := by
    rw [broker_eq hhistory, hmaker]
    exact h.sane
  proper := htokens.proper
  owners o' o hmade := by
    have hin := h.owners o' o (hmaker ▸ hmade)
    cases o with
    | run i => exact Nat.lt_of_lt_of_eq hin (congrArg List.length hruns.symm)
    | lane j => exact Nat.lt_of_lt_of_eq hin (congrArg List.length hlanes.symm)
  stoppers := hstoppers
  runs := by
    rw [hlanes, hruns]
    exact h.runs
  lane j lane hget hne := by
    obtain ⟨place, hgood⟩ := h.lane j lane (hlanes ▸ hget) hne
    exact ⟨place, hgood.frame hhistory hmaker (hready j hne)⟩
  run i run hget hne := by
    obtain ⟨stage, hgood⟩ := h.run i run (hruns ▸ hget) hne
    exact ⟨stage, hgood.frame hhistory hmaker htokens (continues_of_lanes hlanes i)
      (fun token => hstopper token i) fun token hgone' hmine => hne (hgone token i hgone' hmine)⟩

/-- The same, and no run makes a token. -/
theorem Good.frame (h : Good x s) (hhistory : s'.history = s.history) (hmaker : s'.maker = s.maker)
    (hlanes : s'.lanes = s.lanes) (hruns : s'.runs = s.runs) (hstopper : s'.stopper = s.stopper)
    (htokens : Later gone s.tokens s'.tokens)
    (hgone : ∀ token i, gone = some token → s.stopper token = some i → x = some (.run i))
    (hready : ∀ j, x ≠ some (.lane j) → j ∈ s.ready → j ∈ s'.ready) : Good x s' :=
  h.mono hhistory hmaker hlanes hruns htokens hgone (fun _ _ hmine => hstopper ▸ hmine)
    (fun token i hmine => Nat.lt_of_lt_of_le (h.stoppers token i (hstopper ▸ hmine)) htokens.length)
    hready

/-! ## What is set -/

theorem turn_eq_ask (lane : Lane) :
    ∃ next, lane.turn = .ask (.receive lane.stream lane.stops) next :=
  ⟨_, rfl⟩

theorem again_obeys {config : ConsumerConfig} {stops : List TokenId}
    {p : Consuming.Action (Lane ⊕ Except ConsumeError Unit)}
    (h : p.Obeys (Moves config stops) (Turned stops) place) :
    (again p).Obeys (Moves config stops) (Turned stops) place ∧
      ∀ reading, again p ≠ .done (.inl reading) := by
  cases p with
  | ask r next => exact ⟨h, fun _ heq => by simp only [again, reduceCtorEq] at heq⟩
  | done result =>
    rcases result with reading | result
    · obtain ⟨hstops, hplace⟩ := h
      obtain ⟨next, hturn⟩ := turn_eq_ask reading
      exact ⟨hplace ▸ obeys_turn hstops, fun _ heq => by rw [again, hturn] at heq; cases heq⟩
    · exact ⟨h, fun _ heq => by simp only [again, Program.done.injEq, reduceCtorEq] at heq⟩

theorem onward_obeys {p : Consuming.Action Group.Progress}
    (h : p.Obeys (Runs i run.group run.cancel run.delivery) (Progressed i) stage) :
    (onward p).Obeys (Runs i run.group run.cancel run.delivery) (Progressed i) stage ∧
      ∀ running, onward p ≠ .done (.inl running) := by
  cases p with
  | ask r next => exact ⟨h, nofun⟩
  | done result =>
    rcases result with running | result
    · obtain ⟨hrun, hstage⟩ := h
      exact ⟨hstage ▸ obeys_running hrun, nofun⟩
    · exact ⟨h, nofun⟩

/-- A lane is set, and its run may be told how it has ended. -/
theorem Good.setLane (h : Good (some (.lane j)) s) (hget : s.lanes[j]? = some lane)
    (hhistory : s'.history = s.history) (hmaker : s'.maker = s.maker) (htokens : s'.tokens = s.tokens)
    (hstopper : s'.stopper = s.stopper) (hlanes : s'.lanes = s.lanes.set j lane')
    (hruns : s'.runs.length = s.runs.length ∧ ∀ (i : Nat) (run' : Run), s'.runs[i]? = some run' →
      ∃ run, s.runs[i]? = some run ∧ run'.rest = run.rest ∧ run.Alike run')
    (hready : ∀ x ≠ j, x ∈ s.ready → x ∈ s'.ready) (hrun : lane'.run = lane.run)
    (hstops : lane'.stops = lane.stops) (hfinished : lane.finished = true → lane'.finished = true)
    (hgood : LaneGood s' j lane' place) : Good none s' := by
  have hlength : s'.lanes.length = s.lanes.length := by rw [hlanes, List.length_set]
  have hlater : Later none s.tokens s'.tokens := htokens ▸ h.proper.later_refl none
  have hcontinues : ∀ i, Continues s s' i := fun i lane'' hmem hi => by
    rw [hlanes] at hmem
    rcases List.mem_or_eq_of_mem_set hmem with hmem | rfl
    · exact ⟨lane'', hmem, hi, rfl, id⟩
    · exact ⟨lane, List.mem_of_getElem? hget, hrun ▸ hi, hstops, hfinished⟩
  refine ⟨?_, hlater.proper, fun o' o hmade => ?_, fun token i hmine => ?_, fun lane'' hmem => ?_,
    fun x lane'' hx _ => ?_, fun i run' hi _ => ?_⟩
  · rw [broker_eq hhistory, hmaker]
    exact h.sane
  · have hin := h.owners o' o (hmaker ▸ hmade)
    cases o with
    | run i => exact Nat.lt_of_lt_of_eq hin hruns.1.symm
    | lane j => exact Nat.lt_of_lt_of_eq hin hlength.symm
  · rw [htokens]
    exact h.stoppers token i (hstopper ▸ hmine)
  · obtain ⟨lane₀, hmem₀, hrun₀, -⟩ := hcontinues lane''.run lane'' hmem rfl
    rw [← hrun₀, hruns.1]
    exact h.runs lane₀ hmem₀
  · rw [hlanes] at hx
    rcases getElem?_set_cases hx with ⟨rfl, rfl⟩ | ⟨hxj, hx⟩
    · exact ⟨place, hgood⟩
    · obtain ⟨place'', hgood''⟩ := h.lane x lane'' hx (by simpa using Ne.symm hxj)
      exact ⟨place'', hgood''.frame hhistory hmaker (hready x hxj)⟩
  · obtain ⟨run, hget', hrest, halike⟩ := hruns.2 i run' hi
    obtain ⟨stage, hgood'⟩ := h.run i run hget' nofun
    have hframe := hgood'.frame hhistory hmaker hlater (hcontinues i)
      (fun token hmine => hstopper ▸ hmine) fun _ hnone => by cases hnone
    exact ⟨stage, hframe.of_alike hrest halike⟩

/-- A lane goes on with what is left to do, from its place. -/
theorem Good.goOn (h : Good (some (.lane j)) s) (hget : s.lanes[j]? = some lane)
    (hunfinished : lane.finished = false) {p : Consuming.Action (Lane ⊕ Except ConsumeError Unit)}
    (hobeys : p.Obeys (Moves lane.consumer.config lane.stops) (Turned lane.stops) place)
    (hhas : LaneAt s.broker s.maker j lane.queue place) : Good none (s.goOn j lane (again p)) := by
  obtain ⟨hobeys, hturned⟩ := again_obeys hobeys
  generalize again p = p at hobeys hturned
  have hfinished : ∀ {lane' : Worker}, lane.finished = true → lane'.finished = true := fun hf => by
    rw [hunfinished] at hf
    cases hf
  have waked : Good none ((s.setLane j { lane with rest := p }).wake [j]) :=
    h.setLane hget rfl rfl rfl rfl rfl ⟨rfl, fun i run hi => ⟨run, hi, rfl, rfl⟩⟩
      (fun x _ hx => List.mem_append_left _ hx) rfl rfl hfinished
      ⟨hobeys, hturned, hhas, .inl (List.mem_append_right _ (List.mem_singleton_self j))⟩
  cases p with
  | ask r next => exact waked
  | done result =>
    rcases result with reading | result
    · exact absurd rfl (hturned reading)
    · refine h.setLane hget rfl rfl rfl rfl rfl ⟨List.length_modify .., fun i run' hi => ?_⟩
        (fun x hx hmem => List.mem_filter.mpr ⟨hmem, by simpa using hx⟩) rfl rfl hfinished
        ⟨hobeys, hturned, hhas, .inr (.inl rfl)⟩
      change (s.runs.modify lane.run _)[i]? = some run' at hi
      rw [List.getElem?_modify, Option.map_eq_map, Option.map_eq_some_iff] at hi
      obtain ⟨run, hget', hrun⟩ := hi
      refine ⟨run, hget', ?_⟩
      rw [← hrun]
      split <;> exact ⟨rfl, rfl⟩

/-- A lane stays as it is; whether it is ready still, is said by its own part of the invariant. -/
theorem Good.stay (h : Good (some (.lane j)) s) (hget : s.lanes[j]? = some lane) {ready : List Nat}
    (hready : ∀ x ≠ j, x ∈ s.ready → x ∈ ready) (hgood : LaneGood { s with ready } j lane place) :
    Good none { s with ready } := by
  obtain ⟨hlt, rfl⟩ := List.getElem?_eq_some_iff.mp hget
  exact h.setLane hget rfl rfl rfl rfl (List.set_getElem_self hlt).symm
    ⟨rfl, fun i run hi => ⟨run, hi, rfl, rfl⟩⟩ hready rfl rfl id hgood

section Stay

variable (h : Good (some (.lane j)) s) (hget : s.lanes[j]? = some lane)
  (hobeys : lane.rest.Obeys (Moves lane.consumer.config lane.stops) (Turned lane.stops) place)
  (hturned : ∀ reading, lane.rest ≠ .done (.inl reading))
  (hhas : LaneAt s.broker s.maker j lane.queue place)

include h hget hobeys hturned hhas

/-- A lane sleeps. -/
theorem Good.rest (hasleep : Asleep s lane place) : Good none (s.rest j) :=
  h.stay hget (fun x hx hmem => List.mem_filter.mpr ⟨hmem, by simpa using hx⟩)
    ⟨hobeys, hturned, hhas, .inr (.inr hasleep)⟩

/-- A lane goes on with what it is doing. -/
theorem Good.wake : Good none (s.wake [j]) :=
  h.stay hget (fun _ _ => List.mem_append_left _)
    ⟨hobeys, hturned, hhas, .inl (List.mem_append_right _ (List.mem_singleton_self j))⟩

end Stay

/-- A run is set. -/
theorem Good.setRun (h : Good (some (.run i)) s) (hgood : RunGood s i run' stage) :
    Good none (s.setRun i run') := by
  have hlength : (s.setRun i run').runs.length = s.runs.length := List.length_set
  refine ⟨h.sane, h.proper, fun o' o hmade => ?_, h.stoppers, fun lane hmem => ?_,
    fun j lane hget _ => ?_, fun x run hget _ => ?_⟩
  · have hin := h.owners o' o hmade
    cases o with
    | run i => exact Nat.lt_of_lt_of_eq hin hlength.symm
    | lane j => exact hin
  · rw [hlength]
    exact h.runs lane hmem
  · obtain ⟨place, hlane⟩ := h.lane j lane hget nofun
    exact ⟨place, hlane.frame rfl rfl id⟩
  · change (s.runs.set i run')[x]? = some run at hget
    have hlater : Later none s.tokens s.tokens := h.proper.later_refl none
    have hframe : ∀ {x : Nat} {run : Run} {stage : Stage}, RunGood s x run stage →
        RunGood (s.setRun i run') x run stage := fun hgood =>
      hgood.frame rfl rfl hlater (continues_of_lanes rfl _) (fun _ h => h) fun _ hnone => by
        cases hnone
    rcases getElem?_set_cases hget with ⟨rfl, rfl⟩ | ⟨hx, hget⟩
    · exact ⟨stage, hframe hgood⟩
    · obtain ⟨stage', hgood'⟩ := h.run x run hget (by simpa using Ne.symm hx)
      exact ⟨stage', hframe hgood'⟩

/-- A lane that starts has nothing. -/
theorem laneAt_fresh {m : Memory} {maker : Handle → Option Owner} {queue : String}
    (hnone : ∀ h, maker h ≠ some (.lane j)) : LaneAt m maker j queue .fresh where
  channels := ⟨fun _ hc => absurd hc (hnone _), nofun⟩
  stream _ hc := by cases hc
  known _ _ hc := absurd hc (hnone _)
  deliveries _ hc := absurd hc (hnone _)
  delivery _ hc := by cases hc
  closed _ hc := by cases hc

theorem lanes_spawn (s : System) (lane : Worker) : (s.spawn lane).lanes = s.lanes ++ [lane] :=
  rfl

/-- A run starts a lane. -/
theorem Good.spawn (h : Good (some (.run i)) s) (hi : i < s.runs.length) (consumer : Consumer)
    (stops : List TokenId) : Good (some (.run i)) (s.spawn (.fresh i consumer stops)) := by
  have hlanes := lanes_spawn s (.fresh i consumer stops)
  have hready : ∀ j ∈ s.ready, j ∈ (s.spawn (.fresh i consumer stops)).ready :=
    fun j hj => List.mem_append_left _ hj
  refine ⟨h.sane, h.proper, fun o' o hmade => ?_, h.stoppers, fun lane hmem => ?_,
    fun j lane hget hne => ?_, fun x run hget hne => ?_⟩
  · have hin := h.owners o' o hmade
    cases o with
    | run i => exact hin
    | lane j =>
      refine Nat.lt_of_lt_of_le hin ?_
      rw [hlanes, List.length_append]
      exact Nat.le_add_right _ _
  · rcases List.mem_append.mp hmem with hmem | hmem
    · exact h.runs lane hmem
    · rw [List.mem_singleton.mp hmem]
      exact hi
  · rcases getElem?_append_cases hget with hget | ⟨rfl, rfl⟩
    · obtain ⟨place, hgood⟩ := h.lane j lane hget nofun
      exact ⟨place, hgood.frame rfl rfl (hready j)⟩
    · have hobeys := obeys_start consumer stops
      refine ⟨.fresh, hobeys, fun reading heq => ?_, laneAt_fresh fun o hmade => ?_,
        .inl (List.mem_append_right _ (List.mem_singleton_self _))⟩
      · rw [show Lane.start consumer stops = .done (.inl reading) from heq] at hobeys
        cases hobeys.2
      · exact absurd (h.owners o _ hmade) (Nat.lt_irrefl _)
  · obtain ⟨stage, hgood⟩ := h.run x run hget hne
    refine ⟨stage, hgood.frame rfl rfl (h.proper.later_refl none) ?_ (fun _ h => h)
      fun _ hnone => by cases hnone⟩
    intro lane hmem hx
    rcases List.mem_append.mp hmem with hmem | hmem
    · exact ⟨lane, hmem, hx, rfl, id⟩
    · rw [List.mem_singleton.mp hmem] at hx
      exact absurd (congrArg (fun n => some (Owner.run n)) hx) hne

/-- A run begins. -/
theorem Good.start (h : Good none s) (g : Group) {cancel delivery : TokenId}
    (hroot : s.tokens.Root cancel) (hdelivery : s.tokens.Exists delivery) :
    Good none { s with runs := s.runs ++
      [{ group := g, cancel, delivery, rest := g.start true s.runs.length cancel delivery }] } := by
  refine ⟨h.sane, h.proper, fun o' o hmade => ?_, h.stoppers, fun lane hmem => ?_,
    fun j lane hget hne => ?_, fun x run hget hne => ?_⟩
  · have hin := h.owners o' o hmade
    cases o with
    | run i =>
      refine Nat.lt_of_lt_of_le hin ?_
      rw [List.length_append]
      exact Nat.le_add_right _ _
    | lane j => exact hin
  · refine Nat.lt_of_lt_of_le (h.runs lane hmem) ?_
    rw [List.length_append]
    exact Nat.le_add_right _ _
  · obtain ⟨place, hgood⟩ := h.lane j lane hget nofun
    exact ⟨place, hgood.frame rfl rfl id⟩
  · have hlater : Later none s.tokens s.tokens := h.proper.later_refl none
    rcases getElem?_append_cases hget with hget | ⟨rfl, rfl⟩
    · obtain ⟨stage, hgood⟩ := h.run x run hget nofun
      exact ⟨stage, hgood.frame rfl rfl hlater (continues_of_lanes rfl _) (fun _ h => h)
        fun _ hnone => by cases hnone⟩
    · have hnone : ∀ o, s.maker o ≠ some (.run s.runs.length) := fun o hmade =>
        absurd (h.owners o _ hmade) (Nat.lt_irrefl _)
      refine ⟨.fresh, obeys_run _ g cancel delivery, nofun, hroot, hdelivery,
        ⟨fun c hc => absurd hc (hnone _), nofun⟩, nofun, fun _ => hnone _, fun lane hmem hrun => ?_,
        rfl, rfl⟩
      exact absurd (h.runs lane hmem) (hrun ▸ Nat.lt_irrefl _)

end Courier.Serving
