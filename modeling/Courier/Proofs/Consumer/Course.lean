import Courier.Proofs.Consumer.Runs

/-!
# The course of events

`Leads` says what lasts from one system to another that events have led to: lanes stay lanes of
their runs, a run keeps its group and its tokens, and a cancelled token stays cancelled
(`leads_step`). A run goes on only by an event of its own.

`Befell` says what an event does to the broker: at most one thing, which its owner does with what he has
made himself. A lane that the event is not of goes on being as it was (`aside_step`).

A delivery of a lane is new only if the lane has looked for one and none of its tokens was cancelled
(`pulls_step`). So the lanes of a run that is stopped get nothing more (`Good.stopped`).
-/

namespace Courier.Serving

open Memory (Activity)

variable {s s' : System} {x : Option Nat} {i j : Nat} {run : Run} {lane : Worker}
  {delivery : DeliveryId}

/-! ## What lasts -/

/-- What lasts if of the runs only `x` goes on. -/
structure Leads (x : Option Nat) (s s' : System) : Prop where
  lanes : ∀ (j : Nat) (lane : Worker), s.lanes[j]? = some lane →
    ∃ lane', s'.lanes[j]? = some lane' ∧ lane'.run = lane.run
  runs : ∀ (i : Nat) (run : Run), s.runs[i]? = some run → ∃ run', s'.runs[i]? = some run' ∧
    run.Follows run' ∧ (x ≠ some i → run.Alike run' ∧ run'.rest = run.rest)
  cancelled : ∀ token, s.tokens.isCancelled token = true → s'.tokens.isCancelled token = true

/-- A part of an event that is about neither lanes nor runs. -/
structure Beside (s s' : System) : Prop where
  lanes : s'.lanes = s.lanes
  runs : s'.runs = s.runs
  cancelled : ∀ token, s.tokens.isCancelled token = true → s'.tokens.isCancelled token = true

theorem Beside.refl (s : System) : Beside s s :=
  ⟨rfl, rfl, fun _ h => h⟩

theorem Beside.leads (h : Beside s s') (x : Option Nat) : Leads x s s' where
  lanes j lane hget := ⟨lane, by rw [h.lanes, hget], rfl⟩
  runs i run hget := ⟨run, by rw [h.runs, hget], ⟨rfl, rfl, rfl⟩, fun _ => ⟨rfl, rfl⟩⟩
  cancelled := h.cancelled

theorem Leads.trans {s'' : System} (h : Leads x s s') (h' : Leads x s' s'') : Leads x s s'' where
  lanes j lane hget := by
    obtain ⟨lane', hget', hrun⟩ := h.lanes j lane hget
    obtain ⟨lane'', hget'', hrun'⟩ := h'.lanes j lane' hget'
    exact ⟨lane'', hget'', hrun'.trans hrun⟩
  runs i run hget := by
    obtain ⟨run', hget', hsame, hrest⟩ := h.runs i run hget
    obtain ⟨run'', hget'', hsame', hrest'⟩ := h'.runs i run' hget'
    refine ⟨run'', hget'', ⟨hsame'.group.trans hsame.group, hsame'.cancel.trans hsame.cancel,
      hsame'.delivery.trans hsame.delivery⟩, fun hne => ?_⟩
    obtain ⟨halike, hrest⟩ := hrest hne
    obtain ⟨halike', hrest'⟩ := hrest' hne
    exact ⟨by rw [Run.Alike, halike', halike], hrest'.trans hrest⟩
  cancelled token hc := h'.cancelled token (h.cancelled token hc)

theorem beside_wake (s : System) (lanes : List Nat) : Beside s (s.wake lanes) :=
  ⟨rfl, rfl, fun _ h => h⟩

theorem beside_rest (s : System) (j : Nat) : Beside s (s.rest j) :=
  ⟨rfl, rfl, fun _ h => h⟩

theorem beside_befall (s : System) (owner : Option Owner) (a : Activity) :
    Beside s (s.befall owner a) :=
  ⟨rfl, rfl, fun _ h => h⟩

theorem beside_setTokens {tokens : Tokens}
    (h : ∀ token, s.tokens.isCancelled token = true → tokens.isCancelled token = true) :
    Beside s (s.setTokens tokens) :=
  ⟨rfl, rfl, h⟩

theorem beside_receive (s : System) (j : Nat) (stream : StreamId) (stops : List TokenId) :
    Beside s (s.receive j stream stops).2 := by
  have hregister := Tokens.similar_foldl (fun t id => Tokens.similar_register t id j) stops s.tokens
  have hunregister := Tokens.similar_foldl (fun t id => Tokens.similar_unregister t id j) stops s.tokens
  unfold System.receive
  split
  · exact ⟨rfl, rfl, fun token hc => (hunregister.isCancelled token).trans hc⟩
  · split
    · exact ⟨rfl, rfl, fun token hc => (hregister.isCancelled token).trans hc⟩
    · exact ⟨rfl, rfl, fun token hc => (hunregister.isCancelled token).trans hc⟩

theorem beside_answerLane (s : System) (j : Nat) (w : (r : Handler.Request) → Requests.Answer r)
    (r : Consuming.Request) : Beside s (s.answerLane j w r).2 := by
  cases r with
  | receive stream stops => exact beside_receive s j stream stops
  | _ => exact ⟨rfl, rfl, fun _ h => h⟩

theorem leads_setLane (lane' : Worker) (hget : s.lanes[j]? = some lane)
    (hrun : lane'.run = lane.run) : Leads none s (s.setLane j lane') where
  lanes k found hfound := by
    show ∃ lane'', (s.lanes.set j lane')[k]? = some lane'' ∧ _
    by_cases hk : j = k
    · subst hk
      obtain rfl := Option.some.inj (hget.symm.trans hfound)
      exact ⟨lane', List.getElem?_set_self (List.getElem?_eq_some_iff.mp hget).1, hrun⟩
    · exact ⟨found, (List.getElem?_set_ne hk).trans hfound, rfl⟩
  runs i run hget := ⟨run, hget, ⟨rfl, rfl, rfl⟩, fun _ => ⟨rfl, rfl⟩⟩
  cancelled _ h := h

theorem leads_goOn (hget : s.lanes[j]? = some lane)
    (p : Consuming.Action (Lane ⊕ Except ConsumeError Unit)) : Leads none s (s.goOn j lane p) := by
  have waked : Leads none s ((s.setLane j { lane with rest := p }).wake [j]) :=
    (leads_setLane { lane with rest := p } hget rfl).trans ((beside_wake _ [j]).leads none)
  cases p with
  | ask r next => exact waked
  | done result =>
    rcases result with reading | result
    · exact waked
    · have hset := leads_setLane { lane with rest := .done (.inr result) } hget rfl
      refine hset.trans ⟨fun k found hfound => ⟨found, hfound, rfl⟩, fun k run hrun => ?_, fun _ h => h⟩
      refine ⟨if lane.run = k then { run with ended := run.ended ++ [result] } else run, ?_, ?_⟩
      · show (s.runs.modify lane.run _)[k]? = _
        rw [List.getElem?_modify, show s.runs[k]? = some run from hrun]
        rfl
      · split <;> exact ⟨⟨rfl, rfl, rfl⟩, fun _ => ⟨rfl, rfl⟩⟩

theorem leads_runLane (s : System) (j : Nat) (w : (r : Handler.Request) → Requests.Answer r) :
    Leads none s (s.runLane j w) := by
  have stays : Leads none s s := (Beside.refl s).leads none
  unfold System.runLane
  split
  · exact stays
  · rename_i lane hget
    split
    · exact stays
    · rename_i r next hrest
      have hbeside := beside_answerLane s j w r
      generalize s.answerLane j w r = p at hbeside
      obtain ⟨a | a, s'⟩ := p
      · exact (hbeside.leads none).trans ((beside_rest s' j).leads none)
      · exact (hbeside.leads none).trans (leads_goOn (hbeside.lanes ▸ hget) _)

theorem leads_spawn (s : System) (lane : Worker) (x : Option Nat) : Leads x s (s.spawn lane) where
  lanes j found hget := by
    refine ⟨found, ?_, rfl⟩
    show (s.lanes ++ [lane])[j]? = _
    rw [List.getElem?_append_left (List.getElem?_eq_some_iff.mp hget).1, hget]
  runs i run hget := ⟨run, hget, ⟨rfl, rfl, rfl⟩, fun _ => ⟨rfl, rfl⟩⟩
  cancelled _ h := h

theorem leads_setRun {run' : Run} (hget : s.runs[i]? = some run) (hsame : run.Follows run') :
    Leads (some i) s (s.setRun i run') where
  lanes j lane hget := ⟨lane, hget, rfl⟩
  runs k found hfound := by
    show ∃ run'', (s.runs.set i run')[k]? = some run'' ∧ _
    by_cases hk : i = k
    · subst hk
      obtain rfl := Option.some.inj (hget.symm.trans hfound)
      exact ⟨run', List.getElem?_set_self (List.getElem?_eq_some_iff.mp hget).1, hsame,
        fun hne => absurd rfl hne⟩
    · exact ⟨found, (List.getElem?_set_ne hk).trans hfound, ⟨rfl, rfl, rfl⟩, fun _ => ⟨rfl, rfl⟩⟩
  cancelled _ h := h

/-- What a run is answered leaves all runs as they are, but for what is noted of this one. -/
theorem leads_answerRun (hp : s.tokens.Proper) (i : Nat) (run : Run) (r : Consuming.Request) :
    Leads (some i) s (s.answerRun i run r).2 ∧ (s.answerRun i run r).2.runs = s.runs ∧
      ∀ a run', (s.answerRun i run r).1 = some (a, run') → run.Follows run' := by
  have beside : ∀ {s'}, Beside s s' → Leads (some i) s s' := fun h => h.leads (some i)
  have hnoted : ∀ {α : Type} {a a' : α} {run' : Run}, some (a, run) = some (a', run') →
      run.Follows run' := fun heq => by
    cases heq
    exact ⟨rfl, rfl, rfl⟩
  cases r with
  | session r =>
    refine ⟨beside ⟨rfl, rfl, fun _ h => h⟩, rfl, fun a run' heq => ?_⟩
    cases heq
    exact run.follows_told r _
  | childToken parent =>
    exact ⟨beside ⟨rfl, rfl, (hp.later_addChild parent).cancelled⟩, rfl, fun _ _ => hnoted⟩
  | cancelToken token =>
    exact ⟨beside ⟨rfl, rfl, (hp.later_cancel token).cancelled⟩, rfl, fun _ _ => hnoted⟩
  | dropToken token =>
    exact ⟨beside ⟨rfl, rfl, (hp.later_dropChild token).cancelled⟩, rfl, fun _ _ => hnoted⟩
  | spawnLane number consumer stops =>
    exact ⟨leads_spawn s _ _, rfl, fun _ _ => hnoted⟩
  | join number =>
    refine ⟨beside (.refl s), rfl, fun a run' heq => ?_⟩
    change s.join i run = some (a, run') at heq
    unfold System.join at heq
    split at heq
    · cases heq
      exact ⟨rfl, rfl, rfl⟩
    · split at heq
      · exact hnoted heq
      · cases heq
  | _ => exact ⟨beside (.refl s), rfl, fun _ _ heq => by cases heq⟩

theorem leads_runRun (hp : s.tokens.Proper) (i : Nat) : Leads (some i) s (s.runRun i) := by
  have stays : Leads (some i) s s := (Beside.refl s).leads (some i)
  unfold System.runRun
  split
  · exact stays
  · rename_i run hget
    split
    · exact stays
    · rename_i r next hrest
      obtain ⟨hleads, hruns, hsame⟩ := leads_answerRun hp i run r
      generalize s.answerRun i run r = p at hleads hruns hsame
      obtain ⟨a | ⟨a, run'⟩, s'⟩ := p
      · exact hleads
      · have hfollows := hsame a run' rfl
        exact hleads.trans (leads_setRun (hruns ▸ hget)
          ⟨hfollows.group, hfollows.cancel, hfollows.delivery⟩)

/-- The run that goes on by an event. -/
def Event.run? : Event → Option Nat
  | .run i => some i
  | _ => none

theorem leads_step (hp : s.tokens.Proper) (e : Event) : Leads e.run? s (s.step e) := by
  have stays : Leads none s s := (Beside.refl s).leads none
  cases e with
  | run i => exact leads_runRun hp i
  | lane j w => exact leads_runLane s j w
  | start g cancel delivery =>
    simp only [System.step, System.start]
    split
    · refine ⟨fun j lane hget => ⟨lane, hget, rfl⟩, fun i run hget => ⟨run, ?_, ⟨rfl, rfl, rfl⟩,
        fun _ => ⟨rfl, rfl⟩⟩, fun _ h => h⟩
      rw [List.getElem?_append_left (List.getElem?_eq_some_iff.mp hget).1, hget]
    · exact stays
  | other a =>
    simp only [System.step]
    split
    · exact (beside_befall s none a).leads none
    · exact stays
  | cancel token => exact (beside_setTokens (hp.later_cancel token).cancelled).leads none
  | newToken => exact ⟨stays.lanes, stays.runs, hp.later_add.cancelled⟩

/-- A lane stays a lane of its run. -/
theorem Good.lane_after (h : Good none s) (events : List Event) (hget : s.lanes[j]? = some lane) :
    ∃ lane', (s.after events).lanes[j]? = some lane' ∧ lane'.run = lane.run := by
  induction events generalizing s lane with
  | nil => exact ⟨lane, hget, rfl⟩
  | cons e events ih =>
    obtain ⟨lane', hget', hrun⟩ := (leads_step h.proper e).lanes j lane hget
    obtain ⟨lane'', hget'', hrun'⟩ := ih (h.step e) hget'
    exact ⟨lane'', hget'', hrun'.trans hrun⟩

/-! ## What an event does to the broker -/

/-- The lane is to receive from this stream. -/
def System.Receives (s : System) (j : Nat) (stream : StreamId) : Prop :=
  ∃ lane stops next, s.lanes[j]? = some lane ∧ lane.rest = .ask (.receive stream stops) next

/-- Nothing has befallen the broker, or one thing, done by this owner with what he has made. A lane asks
its stream only when it is to receive from it. -/
inductive Befell (owner : Option Owner) (s s' : System) : Prop where
  | none (hhistory : s'.history = s.history) (hmaker : s'.maker = s.maker)
  | one (a : Activity) (hmay : May s.maker owner a)
      (hreceives : ∀ stream, a.polls? = some stream → ∀ j, owner = some (.lane j) → s.Receives j stream)
      (hhistory : s'.history = s.history ++ [a]) (hmaker : s'.maker = made s.maker s.broker owner a)

section Befell

variable {owner : Option Owner} {s'' : System}

/-- What comes then does not concern the broker. -/
theorem Befell.then (h : Befell owner s s') (hhistory : s''.history = s'.history)
    (hmaker : s''.maker = s'.maker) : Befell owner s s'' := by
  cases h with
  | none hh hm => exact .none (hhistory.trans hh) (hmaker.trans hm)
  | one a hmay hreceives hh hm =>
    exact .one a hmay hreceives (hhistory.trans hh) (hmaker.trans hm)

theorem history_hearLane (j : Nat) (lane : Worker) {r : Consuming.Request}
    (next : Requests.Answer r → Consuming.Action (Lane ⊕ Except ConsumeError Unit))
    (heard : Option (Requests.Answer r) × System) :
    (System.hearLane j lane next heard).history = heard.2.history ∧
      (System.hearLane j lane next heard).maker = heard.2.maker := by
  have goOn : ∀ (s : System) p, (s.goOn j lane p).history = s.history ∧
      (s.goOn j lane p).maker = s.maker := fun s p => by
    rcases p with (reading | result) | _ <;> exact ⟨rfl, rfl⟩
  obtain ⟨a | a, s'⟩ := heard
  · exact ⟨rfl, rfl⟩
  · exact goOn s' _

/-- What a lane hears does not concern the broker. -/
theorem Befell.hear (j : Nat) (lane : Worker) {r : Consuming.Request}
    (next : Requests.Answer r → Consuming.Action (Lane ⊕ Except ConsumeError Unit))
    {heard : Option (Requests.Answer r) × System} (h : Befell owner s heard.2) :
    Befell owner s (System.hearLane j lane next heard) :=
  h.then (history_hearLane j lane next heard).1 (history_hearLane j lane next heard).2

/-- A lane that is to receive asks its stream, wholly or in part. -/
theorem befell_poll (h : Good none s) (hget : s.lanes[j]? = some lane) {stream : StreamId}
    {stops : List TokenId} {next : Requests.Answer (Consuming.Request.receive stream stops) →
      Consuming.Action (Lane ⊕ Except ConsumeError Unit)}
    (hrest : lane.rest = .ask (.receive stream stops) next) {a : Activity}
    (hpolls : a.polls? = some stream) :
    Befell (some (.lane j)) s (s.befall (some (.lane j)) a) := by
  obtain ⟨place, hgood⟩ := h.lane j lane hget nofun
  obtain ⟨-, c, rfl⟩ := hgood.reads hrest
  refine .one a (fun o ho => ?_) (fun stream' hstream' k hk => ?_) rfl rfl
  · rw [Activity.handle_of_polls hpolls] at ho
    cases ho
    exact (hgood.has.stream stream rfl).1
  · cases hk
    obtain rfl := Option.some.inj (hpolls.symm.trans hstream')
    exact ⟨lane, stops, next, hget, hrest⟩

theorem befell_runLane (h : Good none s) (j : Nat) (w : (r : Handler.Request) → Requests.Answer r) :
    Befell (some (.lane j)) s (s.runLane j w) := by
  unfold System.runLane
  split
  · exact .none rfl rfl
  · rename_i lane hget
    split
    · exact .none rfl rfl
    · rename_i r next hrest
      have hanswer : Befell (some (.lane j)) s (s.answerLane j w r).2 := by
        cases r with
        | session r =>
          obtain ⟨place, hgood⟩ := h.lane j lane hget nofun
          exact .one (.request r) (hgood.owns hrest) nofun rfl rfl
        | receive stream stops =>
          have hpoll := befell_poll h hget hrest (a := .ask stream) rfl
          simp only [System.answerLane, System.receive]
          split
          · exact .none rfl rfl
          · split <;> exact hpoll.then rfl rfl
        | _ => exact .none rfl rfl
      exact hanswer.hear j lane next

theorem befell_runRun (h : Good none s) (i : Nat) : Befell (some (.run i)) s (s.runRun i) := by
  unfold System.runRun
  split
  · exact .none rfl rfl
  · rename_i run hget
    split
    · exact .none rfl rfl
    · rename_i r next hrest
      have hanswer : Befell (some (.run i)) s (s.answerRun i run r).2 := by
        cases r with
        | session r =>
          obtain ⟨stage, hgood⟩ := h.run i run hget nofun
          exact .one (.request r) (hgood.owns hrest) nofun rfl rfl
        | _ => exact .none rfl rfl
      generalize s.answerRun i run r = p at hanswer
      obtain ⟨a | a, s'⟩ := p <;> exact hanswer.then rfl rfl

/-- Whose event it is. -/
def Event.owner? : Event → Option Owner
  | .run i => some (.run i)
  | .lane j _ => some (.lane j)
  | _ => none

theorem befell_step (h : Good none s) (e : Event) : Befell e.owner? s (s.step e) := by
  cases e with
  | run i => exact befell_runRun h i
  | lane j w => exact befell_runLane h j w
  | other a =>
    simp only [System.step]
    split
    · rename_i hmay
      refine .one a (fun o ho => ?_) (fun _ _ _ h => by cases h) rfl rfl
      rw [ho] at hmay
      exact Option.isNone_iff_eq_none.mp hmay
    · exact .none rfl rfl
  | start g cancel delivery =>
    simp only [System.step, System.start]
    split <;> exact .none rfl rfl
  | _ => exact .none rfl rfl

end Befell

theorem broker_of_history {a : Activity} (h : s'.history = s.history ++ [a]) :
    s'.broker = s.broker.act a := by
  rw [System.broker, h]
  exact List.foldl_append

/-! ## The other lanes -/

/-- The lane is as it was, and can go on if it could. -/
structure Aside (j : Nat) (s s' : System) : Prop where
  lane : ∀ lane, s.lanes[j]? = some lane → s'.lanes[j]? = some lane
  ready : j ∈ s.ready → j ∈ s'.ready

section Aside

variable {k : Nat} {s'' : System}

theorem Aside.refl (j : Nat) (s : System) : Aside j s s :=
  ⟨fun _ h => h, id⟩

theorem Aside.trans (h : Aside j s s') (h' : Aside j s' s'') : Aside j s s'' :=
  ⟨fun lane hget => h'.lane lane (h.lane lane hget), fun hready => h'.ready (h.ready hready)⟩

/-- No lane changes, and no lane comes to rest. -/
theorem aside_of_lanes (hlanes : s'.lanes = s.lanes) (hready : ∀ j ∈ s.ready, j ∈ s'.ready) :
    Aside j s s' :=
  ⟨fun _ hget => hlanes ▸ hget, hready j⟩

theorem aside_wake (s : System) (lanes : List Nat) : Aside j s (s.wake lanes) :=
  aside_of_lanes rfl fun _ => List.mem_append_left _

theorem aside_befall (s : System) (owner : Option Owner) (a : Activity) :
    Aside j s (s.befall owner a) :=
  aside_of_lanes rfl fun _ => List.mem_append_left _

theorem aside_rest (hk : k ≠ j) (s : System) : Aside k s (s.rest j) :=
  ⟨fun _ hget => hget, fun hready => List.mem_filter.mpr ⟨hready, by simpa using hk⟩⟩

theorem aside_goOn (hk : k ≠ j) (s : System) (lane : Worker)
    (p : Consuming.Action (Lane ⊕ Except ConsumeError Unit)) : Aside k s (s.goOn j lane p) := by
  have hset : ∀ lane', Aside k s (s.setLane j lane') := fun lane' =>
    ⟨fun found hget => (List.getElem?_set_ne hk.symm).trans hget, id⟩
  rcases p with (reading | result) | _
  · exact (hset _).trans (aside_wake _ [j])
  · exact (hset { lane with rest := .done (.inr result) }).trans
      ⟨fun _ hget => hget, fun hready => List.mem_filter.mpr ⟨hready, by simpa using hk⟩⟩
  · exact (hset _).trans (aside_wake _ [j])

theorem Aside.hear (hk : k ≠ j) (lane : Worker) {r : Consuming.Request}
    (next : Requests.Answer r → Consuming.Action (Lane ⊕ Except ConsumeError Unit))
    {heard : Option (Requests.Answer r) × System} (h : Aside k s heard.2) :
    Aside k s (System.hearLane j lane next heard) := by
  obtain ⟨a | a, s'⟩ := heard
  · exact h.trans (aside_rest hk s')
  · exact h.trans (aside_goOn hk s' lane _)

theorem aside_runLane (hk : k ≠ j) (s : System) (w : (r : Handler.Request) → Requests.Answer r) :
    Aside k s (s.runLane j w) := by
  unfold System.runLane
  split
  · exact .refl k s
  · rename_i lane hget
    split
    · exact .refl k s
    · rename_i r next hrest
      have hanswer : Aside k s (s.answerLane j w r).2 := by
        cases r with
        | session r => exact aside_befall s _ _
        | receive stream stops =>
          simp only [System.answerLane, System.receive]
          split
          · exact aside_of_lanes rfl fun _ h => h
          · split <;> exact (aside_befall s _ (.ask stream)).trans (aside_of_lanes rfl fun _ h => h)
        | _ => exact .refl k s
      exact hanswer.hear hk lane next

theorem aside_runRun (k : Nat) (s : System) (i : Nat) : Aside k s (s.runRun i) := by
  unfold System.runRun
  split
  · exact .refl k s
  · rename_i run hget
    split
    · exact .refl k s
    · rename_i r next hrest
      have hanswer : Aside k s (s.answerRun i run r).2 := by
        cases r with
        | session r => exact aside_befall s _ _
        | cancelToken token => exact aside_of_lanes rfl fun _ => List.mem_append_left _
        | spawnLane number consumer stops =>
          refine ⟨fun lane hget => ?_, List.mem_append_left _⟩
          show (s.lanes ++ [_])[k]? = some lane
          rw [List.getElem?_append_left (List.getElem?_eq_some_iff.mp hget).1, hget]
        | _ => exact aside_of_lanes rfl fun _ h => h
      generalize s.answerRun i run r = p at hanswer
      obtain ⟨a | a, s'⟩ := p
      · exact hanswer
      · exact hanswer.trans (aside_of_lanes rfl fun _ h => h)

theorem aside_step (s : System) (e : Event) (hk : e.owner? ≠ some (.lane k)) :
    Aside k s (s.step e) := by
  cases e with
  | run i => exact aside_runRun k s i
  | lane j w => exact aside_runLane (fun heq => hk (by rw [heq]; rfl)) s w
  | other a =>
    simp only [System.step]
    split
    · exact aside_befall s none a
    · exact .refl k s
  | start g cancel delivery =>
    simp only [System.step, System.start]
    split <;> exact aside_of_lanes rfl fun _ h => h
  | cancel token => exact aside_of_lanes rfl fun _ => List.mem_append_left _
  | newToken => exact aside_of_lanes rfl fun _ h => h

end Aside

/-! ## What lanes pull -/

/-- The lane looks for a delivery, and finds none of its tokens cancelled. -/
def System.Pulls (s : System) (j : Nat) : Prop :=
  ∃ lane stream stops next, s.lanes[j]? = some lane ∧ lane.rest = .ask (.receive stream stops) next ∧
    stops.any s.tokens.isCancelled = false

theorem Good.maker_request (h : Good none s) {r : Transport.Request} {owner : Option Owner} {o : Owner}
    (hmade : (s.befall owner (.request r)).maker (.delivery delivery) = some o) :
    s.maker (.delivery delivery) = some o :=
  (h.sane.made_eq_some.mp hmade).resolve_right fun hnew => made_request_ne_delivery _ _ _ hnew.1

theorem goOn_maker (s : System) (j : Nat) (lane : Worker)
    (p : Consuming.Action (Lane ⊕ Except ConsumeError Unit)) : (s.goOn j lane p).maker = s.maker := by
  rcases p with (reading | result) | _ <;> rfl

theorem pulls_runLane (h : Good none s) {k : Nat} {w : (r : Handler.Request) → Requests.Answer r}
    (hmade : (s.runLane k w).maker (.delivery delivery) = some (.lane j)) :
    s.maker (.delivery delivery) = some (.lane j) ∨ s.Pulls j := by
  unfold System.runLane at hmade
  split at hmade
  · exact .inl hmade
  · rename_i lane hget
    split at hmade
    · exact .inl hmade
    · rename_i r next hrest
      have hanswer : (s.answerLane k w r).2.maker (.delivery delivery) = some (.lane j) := by
        generalize s.answerLane k w r = p at hmade
        obtain ⟨a | a, s'⟩ := p
        · exact hmade
        · exact (congrFun (goOn_maker s' k lane _) _).symm.trans hmade
      cases r with
      | session r => exact .inl (h.maker_request hanswer)
      | receive stream stops =>
        change (s.receive k stream stops).2.maker (.delivery delivery) = some (.lane j) at hanswer
        unfold System.receive at hanswer
        split at hanswer
        · exact .inl hanswer
        · rename_i hlive
          have hmaker : made s.maker s.broker (some (.lane k)) (.ask stream) (.delivery delivery) =
              some (.lane j) := by
            split at hanswer <;> exact hanswer
          refine (h.sane.made_eq_some.mp hmaker).imp_right fun hnew => ?_
          cases hnew.2
          exact ⟨lane, stream, stops, next, hget, hrest, Bool.eq_false_iff.mpr hlive⟩
      | _ => exact .inl hanswer

theorem runRun_maker (h : Good none s)
    (hmade : (s.runRun i).maker (.delivery delivery) = some (.lane j)) :
    s.maker (.delivery delivery) = some (.lane j) := by
  unfold System.runRun at hmade
  split at hmade
  · exact hmade
  · rename_i run hget
    split at hmade
    · exact hmade
    · rename_i r next hrest
      have hanswer : (s.answerRun i run r).2.maker (.delivery delivery) = some (.lane j) := by
        generalize s.answerRun i run r = p at hmade
        obtain ⟨a | a, s'⟩ := p <;> exact hmade
      cases r with
      | session r => exact h.maker_request hanswer
      | _ => exact hanswer

/-- A delivery that a lane has got by an event, is one that it looked for. -/
theorem pulls_step (h : Good none s) {e : Event}
    (hmade : (s.step e).maker (.delivery delivery) = some (.lane j)) :
    s.maker (.delivery delivery) = some (.lane j) ∨ s.Pulls j := by
  cases e with
  | run i => exact .inl (runRun_maker h hmade)
  | lane k w => exact pulls_runLane h hmade
  | start g cancel delivery' =>
    simp only [System.step, System.start] at hmade
    split at hmade <;> exact .inl hmade
  | other a =>
    simp only [System.step] at hmade
    split at hmade
    · exact .inl ((h.sane.made_eq_some.mp hmade).resolve_right fun hnew => by cases hnew.2)
    · exact .inl hmade
  | cancel token => exact .inl hmade
  | newToken => exact .inl hmade

/-! ## Runs that are stopped -/

/-- A token of the run is cancelled. -/
def Stopping (s : System) (run : Run) : Prop :=
  ∃ token ∈ [run.cancel, run.delivery], s.tokens.isCancelled token = true

/-- The lanes of a run that is stopped do not get to look for a delivery. -/
theorem Good.not_pulls (h : Good none s) (hget : s.runs[i]? = some run) (hstop : Stopping s run)
    (hlane : s.lanes[j]? = some lane) (hrun : lane.run = i) : ¬s.Pulls j := by
  rintro ⟨found, stream, stops, next, hfound, hrest, hlive⟩
  obtain rfl := Option.some.inj (hlane.symm.trans hfound)
  obtain ⟨place, hgood⟩ := h.lane j lane hlane nofun
  obtain ⟨stage, hat⟩ := h.run i run hget nofun
  have hmem : lane ∈ s.lanes := List.mem_of_getElem? hlane
  have hunfinished : lane.finished ≠ true := by simp [Worker.finished, hrest]
  have hobeys := hgood.obeys
  rw [hrest] at hobeys
  have hstops : stops = lane.stops := by
    obtain ⟨a, place', hm⟩ := hobeys.allowed
    cases hm with
    | taken => rfl
    | stopped => rfl
  have hstage := hat.stage
  cases stage with
  | running lanes todo =>
    obtain ⟨-, -, hlinked, hall⟩ := hstage
    rw [hstops, hall lane hmem hrun] at hlive
    simp only [List.any_cons, List.any_nil, Bool.or_false, Bool.or_eq_false_iff] at hlive
    obtain ⟨token, htoken, hc⟩ := hstop
    simp only [List.mem_cons, List.not_mem_nil, or_false] at htoken
    rcases htoken with rfl | rfl
    · exact absurd (hlinked.isCancelled hc) (by simp [hlive.1])
    · exact absurd hc (by simp [hlive.2])
  | leaving lanes => exact hunfinished (hstage.2.2 lane hmem hrun)
  | ended => exact hunfinished (hstage.2 lane hmem hrun)
  | _ => exact hstage.1 lane hmem hrun

/-- Once a run is stopped, its lanes get no delivery that they do not have. -/
theorem Good.stopped (h : Good none s) (hget : s.runs[i]? = some run) (hstop : Stopping s run)
    (events : List Event) (hlane : (s.after events).lanes[j]? = some lane) (hrun : lane.run = i)
    (hmade : (s.after events).maker (.delivery delivery) = some (.lane j)) :
    s.maker (.delivery delivery) = some (.lane j) := by
  induction events generalizing s run with
  | nil => exact hmade
  | cons e events ih =>
    have hleads := leads_step h.proper e
    obtain ⟨run', hget', hsame, -⟩ := hleads.runs i run hget
    have hstop' : Stopping (s.step e) run' := by
      obtain ⟨token, htoken, hc⟩ := hstop
      exact ⟨token, by rwa [hsame.cancel, hsame.delivery], hleads.cancelled token hc⟩
    have hstep := ih (h.step e) hget' hstop' hlane hmade
    refine (pulls_step h hstep).resolve_right fun hpulls => ?_
    -- who pulls is a lane already, and of the same run as in the end
    obtain ⟨found, -, -, -, hfound, -⟩ := id hpulls
    obtain ⟨lane', hlane', hrun'⟩ := h.lane_after (e :: events) hfound
    obtain rfl := Option.some.inj (hlane.symm.trans hlane')
    exact h.not_pulls hget hstop hfound (hrun'.symm.trans hrun) hpulls

end Courier.Serving
