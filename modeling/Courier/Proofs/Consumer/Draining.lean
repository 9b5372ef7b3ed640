import Courier.Proofs.Consumer.Course

/-!
# Draining

What a run of a group leaves behind, and how it is stopped. Once one of its tokens is cancelled, its
lanes get nothing more. When it has returned, all that it or its lanes have opened is closed, and
each delivery that they have got is settled and written down once (`Drained`). If something cannot
be declared, no lane starts, and the run returns the error with the name of the queue (`Refused`);
a run that has lanes has made all its declarations (`Good.accepted`).
`drained_after` says so of any number of runs, whatever else befalls the broker.
-/

namespace Courier.Serving

variable {s : System} {i : Nat} {run : Run} {stage : Stage} {e : TransportError} {error : ConsumeError}
  {n : Nat}

/-- It is the run, or a lane of it. -/
def Owner.Of (s : System) (i : Nat) : Owner → Prop
  | .run k => k = i
  | .lane j => ∃ lane, s.lanes[j]? = some lane ∧ lane.run = i

/-! ## Runs that have returned -/

/-- The delivery is settled, and there is one settlement of it. -/
def SettledOnce (s : System) (delivery : DeliveryId) : Prop :=
  ∃ d settlement, s.broker.deliveries[delivery]? = some d ∧
    s.account.settled.filter (fun k => k.delivery = delivery) = [settlement] ∧
    settlement.queue = d.queue ∧ settlement.message = d.message

/-- What a run leaves behind that has returned. -/
structure Drained (s : System) (i : Nat) : Prop where
  lanes : s.AllLanes i fun lane => lane.finished = true
  /-- What the lanes have got is settled. -/
  deliveries : ∀ delivery o, s.maker (.delivery delivery) = some o → o.Of s i →
    SettledOnce s delivery
  channels : ∀ c o, s.maker (.channel c) = some o → o.Of s i → s.broker.isClosed c = true

theorem settledOnce {delivery : DeliveryId} (h : s.broker.Settled delivery) :
    SettledOnce s delivery := by
  have hc := s.broker_balanced.conserved
  obtain ⟨d, hd, hflag⟩ := h
  obtain ⟨settlement, hmem, rfl, hqueue, hmessage⟩ := (hc.settled delivery d hd).mp hflag
  exact ⟨d, settlement, hd, filter_eq_singleton hc.once.1 hmem, hqueue, hmessage⟩

/-- When a run has returned, its lanes have ended. -/
theorem RunGood.lanes_finished (h : RunGood s i run stage) {result : Except ConsumeError Unit}
    (hreturned : run.Returned result) :
    stage.channel? = none ∧ s.AllLanes i fun lane => lane.finished = true := by
  have hobeys := h.obeys
  rw [show run.rest = .done (.inr result) from hreturned] at hobeys
  have hstage := h.stage
  rcases hobeys with rfl | ⟨error, -, rfl⟩
  · exact ⟨rfl, hstage.2⟩
  · exact ⟨rfl, fun lane hmem hrun => (hstage.1 lane hmem hrun).elim⟩

theorem Good.drained (h : Good none s) (hget : s.runs[i]? = some run)
    {result : Except ConsumeError Unit} (hreturned : run.Returned result) : Drained s i := by
  obtain ⟨stage, hgood⟩ := h.run i run hget nofun
  obtain ⟨hchannel, hall⟩ := hgood.lanes_finished hreturned
  have hlane : ∀ j lane, s.lanes[j]? = some lane → lane.run = i →
      LaneAt s.broker s.maker j lane.queue .ended := fun j lane hj hrun => by
    obtain ⟨place, hlane⟩ := h.lane j lane hj nofun
    exact hlane.ended (hall lane (List.mem_of_getElem? hj) hrun) ▸ hlane.has
  refine ⟨hall, fun delivery o hmade ho => settledOnce ?_, fun c o hmade ho => ?_⟩
  · cases o with
    | run k => exact absurd hmade (ho ▸ hgood.deliveries delivery)
    | lane j =>
      obtain ⟨lane, hj, hrun⟩ := ho
      exact ((hlane j lane hj hrun).deliveries delivery hmade).resolve_right nofun
  · cases o with
    | run k =>
      cases ho
      refine (hgood.channels.others c hmade).resolve_right ?_
      rw [hchannel]
      nofun
    | lane j =>
      obtain ⟨lane, hj, hrun⟩ := ho
      exact ((hlane j lane hj hrun).channels.others c hmade).resolve_right nofun

/-! ## Runs that cannot declare -/

/-- How far a run is from its end when a declaration has failed. -/
inductive Ending (error : ConsumeError) : Nat → Stage → Prop where
  | closing (c : ChannelId) (todo : List String) : Ending error 2 (.declaring c todo (.error error))
  | closed (c : ChannelId) : Ending error 1 (.closed c (.error error))
  | refused : Ending error 0 (.refused error)

/-- The run has so many requests to make, and returns the error then. -/
structure Run.Ends (run : Run) (i : Nat) (error : ConsumeError) (n : Nat) : Prop where
  obeys : ∃ stage, Ending error n stage ∧
    run.rest.Obeys (Runs i run.group run.cancel run.delivery) (Progressed i) stage
  turned : ∀ running, run.rest ≠ .done (.inl running)

/-- What became of a run that could not make a declaration for a queue. -/
structure Refused (s : System) (i : Nat) (run : Run) (queue : String) (e : TransportError) :
    Prop where
  /-- The declaration that failed is the next one of all that the group needs. -/
  declaration : (declarations run.group.consumers)[run.declared]? = some queue
  lanes : s.AllLanes i fun _ => False
  deliveries : ∀ delivery o, s.maker (.delivery delivery) = some o → ¬o.Of s i
  result : ∀ result, run.Returned result → result = .error (.declare queue e)
  /-- It returns when it has gone on twice. -/
  returns : ∀ events : List Event, 2 ≤ events.countP (fun e => e.run? = some i) →
    ∃ run', (s.after events).runs[i]? = some run' ∧ run'.Returned (.error (.declare queue e))

theorem Run.Ends.returned (h : run.Ends i error 0) : run.Returned (.error error) := by
  obtain ⟨stage, hending, hobeys⟩ := h.obeys
  have hturned := h.turned
  cases hending with
  | refused =>
    cases hrest : run.rest with
    | ask r next =>
      rw [hrest] at hobeys
      obtain ⟨a, stage', hm⟩ := hobeys.allowed
      cases hm
    | done result =>
      rw [hrest] at hobeys hturned
      rcases result with running | result
      · exact absurd rfl (hturned running)
      · rcases hobeys with hover | ⟨error', hresult, hstage⟩
        · cases hover
        · cases hstage
          rw [Run.Returned, hrest, hresult]

/-- A run that has failed makes its next request. -/
theorem Run.Ends.runRun (h : run.Ends i error (n + 1)) (hget : s.runs[i]? = some run) :
    ∃ run', (s.runRun i).runs[i]? = some run' ∧ run'.Ends i error n := by
  obtain ⟨stage, hending, hobeys⟩ := h.obeys
  have hlt : i < s.runs.length := (List.getElem?_eq_some_iff.mp hget).1
  have goes : ∀ {r : Transport.Request} {next : Requests.Answer r → Consuming.Action Group.Progress}
      {stage' : Stage}, run.rest = .ask (.session r) next →
      run.told r (Memory.answer r s.broker).1 = run →
      (next (Memory.answer r s.broker).1).Obeys (Runs i run.group run.cancel run.delivery)
        (Progressed i) stage' → Ending error n stage' →
      ∃ run', (s.runRun i).runs[i]? = some run' ∧ run'.Ends i error n :=
    fun {r next stage'} hrest htold hobeys hending => by
      obtain ⟨hobeys, hturned⟩ := onward_obeys hobeys
      refine ⟨{ run with rest := onward (next (Memory.answer r s.broker).1) }, ?_,
        ⟨stage', hending, hobeys⟩, hturned⟩
      rw [System.runRun_eq hget hrest]
      show (s.runs.set i { run.told r _ with rest := _ })[i]? = _
      rw [List.getElem?_set_self hlt, htold]
  cases hrest : run.rest with
  | done result =>
    rw [hrest] at hobeys
    have hturned := h.turned
    rcases result with running | result
    · exact absurd hrest (hturned running)
    · rcases hobeys with hover | ⟨error', -, hrefused⟩
      · rw [hover] at hending
        cases hending
      · rw [hrefused] at hending
        cases hending
  | ask r next =>
    rw [hrest] at hobeys
    obtain ⟨a, stage', hm⟩ := hobeys.allowed
    cases hending with
    | closing c todo =>
      cases hm with
      | closed => exact goes hrest rfl (hobeys.next (.closed c _ _)) (.closed c)
    | closed c =>
      cases hm with
      | dropped => exact goes hrest rfl (hobeys.next (.dropped c _)) .refused

theorem Run.Ends.of_alike {run' : Run} (h : run.Ends i error n) (halike : run.Alike run')
    (hrest : run'.rest = run.rest) : run'.Ends i error n := by
  have hobeys := h.obeys
  have hturned := h.turned
  rw [← hrest] at hobeys hturned
  rw [halike]
  exact ⟨hobeys, hturned⟩

/-- A run that has failed returns the error, if it goes on often enough. -/
theorem Run.Ends.after (h : run.Ends i error n) (hgood : Good none s) (hget : s.runs[i]? = some run)
    (events : List Event) (hcount : n ≤ events.countP fun e => e.run? = some i) :
    ∃ run', (s.after events).runs[i]? = some run' ∧ run'.Returned (.error error) := by
  induction events generalizing s run n with
  | nil =>
    obtain rfl := Nat.le_zero.mp hcount
    exact ⟨run, hget, h.returned⟩
  | cons event events ih =>
    by_cases hevent : event.run? = some i
    · rw [List.countP_cons_of_pos (by simpa using hevent)] at hcount
      have hrun : event = .run i := by
        cases event with
        | run k => rw [Option.some.inj hevent]
        | _ => cases hevent
      subst hrun
      cases n with
      | zero =>
        refine ih h (hgood.step _) ?_ (Nat.zero_le _)
        show (s.runRun i).runs[i]? = some run
        rw [System.runRun, hget]
        simp only [show run.rest = .done (.inr (.error error)) from h.returned, hget]
      | succ n =>
        obtain ⟨run', hget', h'⟩ := h.runRun hget
        exact ih h' (hgood.step (.run i)) hget' (Nat.le_of_succ_le_succ hcount)
    · rw [List.countP_cons_of_neg (by simpa using hevent)] at hcount
      obtain ⟨run', hget', -, hsame⟩ := (leads_step hgood.proper event).runs i run hget
      obtain ⟨halike, hrest⟩ := hsame hevent
      exact ih (h.of_alike halike hrest) (hgood.step event) hget' hcount

/-- A run whose declaration has failed is about to end. -/
theorem RunGood.ending (h : RunGood s i run stage) (hrefused : run.refused = some e) :
    ∃ queue n, n ≤ 2 ∧ (declarations run.group.consumers)[run.declared]? = some queue ∧
      s.AllLanes i (fun _ => False) ∧ Ending (.declare queue e) n stage := by
  have failed : ∀ {result : Except ConsumeError Unit}, run.Told result → ∃ queue,
      result = .error (.declare queue e) ∧
        (declarations run.group.consumers)[run.declared]? = some queue := fun {result} htold => by
    rcases result with error | _
    · obtain ⟨queue, e', rfl, hrefused', hqueue⟩ := htold
      cases hrefused.symm.trans hrefused'
      exact ⟨queue, rfl, hqueue⟩
    · cases hrefused.symm.trans htold
  have hstage := h.stage
  cases stage with
  | fresh => cases hrefused.symm.trans hstage.2.2
  | declaring c todo result =>
    obtain ⟨queue, rfl, hqueue⟩ := failed hstage.2.1
    exact ⟨queue, 2, Nat.le_refl 2, hqueue, hstage.1, .closing c todo⟩
  | closed c result =>
    obtain ⟨queue, rfl, hqueue⟩ := failed hstage.2.1
    exact ⟨queue, 1, by decide, hqueue, hstage.1, .closed c⟩
  | refused error =>
    obtain ⟨queue, heq, hqueue⟩ := failed hstage.2
    cases heq
    exact ⟨queue, 0, by decide, hqueue, hstage.1, .refused⟩
  | declared => cases hrefused.symm.trans hstage.2.1
  | _ => cases hrefused.symm.trans hstage.1.1

theorem Good.refused (h : Good none s) (hget : s.runs[i]? = some run) (hrefused : run.refused = some e) :
    ∃ queue, Refused s i run queue e := by
  obtain ⟨stage, hgood⟩ := h.run i run hget nofun
  obtain ⟨queue, n, hle, hqueue, hall, hending⟩ := hgood.ending hrefused
  have hends : run.Ends i (.declare queue e) n := ⟨⟨stage, hending, hgood.obeys⟩, hgood.turned⟩
  refine ⟨queue, hqueue, hall, fun delivery o hmade ho => ?_, fun result hreturned => ?_,
    fun events hcount => hends.after h hget events (Nat.le_trans hle hcount)⟩
  · cases o with
    | run k => exact hgood.deliveries delivery (ho ▸ hmade)
    | lane j =>
      obtain ⟨lane, hj, hrun⟩ := ho
      exact hall lane (List.mem_of_getElem? hj) hrun
  · have hobeys := hgood.obeys
    rw [show run.rest = .done (.inr result) from hreturned] at hobeys
    rcases hobeys with hover | ⟨error, rfl, hstage⟩
    · rw [hover] at hending
      cases hending
    · rw [hstage] at hending
      cases hending
      rfl

/-- A run that has lanes has made all its declarations. -/
theorem Good.accepted (h : Good none s) (hget : s.runs[i]? = some run) {lane : Worker}
    (hmem : lane ∈ s.lanes) (hrun : lane.run = i) : run.Accepted := by
  obtain ⟨stage, hgood⟩ := h.run i run hget nofun
  have hstage := hgood.stage
  cases stage with
  | running lanes todo | leaving lanes | ended => exact hstage.1
  | _ => exact (hstage.1 lane hmem hrun).elim

/-! ## All runs -/

/-- One lane has got a message when the group is shut down, and the other one starts only then: the
second message stays, and nothing is left open. -/
example (w : (r : Handler.Request) → Requests.Answer r) :
    let g : Group := { consumers :=
      [{ config := { queue := "jobs", concurrency := 2 }, handler := fun _ => Handling.succeed }] }
    let publish : Event := .other (.request (.publish 0 ⟨{ routingKey := "jobs" }, []⟩ {}))
    let s := ({} : System).after ([.newToken, .newToken, .other (.request .openChannel), .start g 0 1] ++
      List.replicate 7 (.run 0) ++ [publish, publish] ++ List.replicate 4 (.lane 0 w) ++ [.cancel 1] ++
      List.replicate 5 (.lane 0 w) ++ List.replicate 7 (.lane 1 w) ++ List.replicate 4 (.run 0))
    (s.broker.acknowledgements.length, (s.broker.ready "jobs").length, s.broker.openChannels,
      s.lanes.map (·.finished)) = (1, 1, 1, [true, true]) := by
  cbv

end Courier.Serving
