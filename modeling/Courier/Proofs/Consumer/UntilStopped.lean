import Courier.Proofs.Consumer.Waiting

/-!
# Runs until they are stopped

A run returns with success only after one of its tokens was cancelled, if it has a lane at all. When
all lanes have ended and none has failed, one of them has ended with success, and has been told to stop
(`Good.stopping`). So what a run notes stays true when it is told how its lanes have ended
(`waitAt_join`), and with any event (`Minded.step`); in the end that is `stopping_of_returned`.

Nobody but the run has the token of its lanes, so nobody else cancels it (`Private`). A group without
consumers has no lanes, and its run returns at once (`returned_unstopped`).
-/

namespace Courier.Serving

open Consuming (Request)

variable {s s' : System} {i : Nat} {run run' : Run} {lane : Worker}

/-! ## One step -/

theorem lanesOf_eq_nil {g : Group} (h : lanesOf g = []) : g.consumers = [] := by
  cases hconsumers : g.consumers with
  | nil => rfl
  | cons consumer rest =>
    have hlanes : consumer.config.lanes ≠ 0 := by
      unfold ConsumerConfig.lanes
      omega
    rw [lanesOf, hconsumers, List.flatMap_cons, List.append_eq_nil_iff,
      List.replicate_eq_nil_iff] at h
    exact absurd h.1 hlanes

/-- When all lanes of a run have ended, and it has looked at all errors and found none, then it is
stopped, if it has a lane. -/
theorem Good.stopping (hgood : Good none s) (hheeding : Heeding s) {lanes : TokenId}
    (hmine : s.stopper lanes = some i)
    (hstops : s.AllLanes i fun lane => lane.stops = [lanes, run.delivery])
    (hget : s.runs[i]? = some run) (hguarded : s.Guarded i run) (hreported : s.Reported i)
    (hended : run.ended = []) (hmem : lane ∈ s.lanes) (hrun : lane.run = i)
    (hfinished : lane.finished = true) : Stopping s run := by
  obtain ⟨j, hj⟩ := List.getElem?_of_mem hmem
  obtain ⟨place, hlane⟩ := hgood.lane j lane hj nofun
  cases hrest : lane.rest with
  | ask r next =>
    rw [Worker.finished, hrest] at hfinished
    cases hfinished
  | done result =>
  rcases result with reading | e | _
  · exact absurd hrest (hlane.turned reading)
  · obtain ⟨found, hfound, herror⟩ := hreported lane hmem hrun e hrest
    obtain rfl := Option.some.inj (hget.symm.trans hfound)
    rw [hended] at herror
    cases herror
  · -- the lane has ended with success, so it has been told to
    obtain ⟨token, htoken, hc⟩ := hheeding.told hmem hrest
    rw [hstops lane hmem hrun] at htoken
    simp only [List.mem_cons, List.not_mem_nil, or_false] at htoken
    rcases htoken with rfl | rfl
    · exact ⟨run.cancel, by simp, (hguarded token hmine).isCancelled hc⟩
    · exact ⟨run.delivery, by simp, hc⟩

/-- A run that is told how its lanes have ended notes what is true. -/
theorem waitAt_join (hgood : Good none s) (hheeding : Heeding s) (hget : s.runs[i]? = some run)
    {lanes : TokenId} (hmine : s.stopper lanes = some i)
    (hstops : s.AllLanes i fun lane => lane.stops = [lanes, run.delivery]) {failed : Bool}
    (hwait : WaitAt s i run (.waiting [] failed)) {joined : Option (Except ConsumeError Unit)}
    (hjoin : s.join i run = some (joined, run')) (rest : Consuming.Action Group.Progress) :
    ∃ wait', Waits run.group (.waiting [] failed) (.join i) joined wait' ∧
      WaitAt (s.setRun i { run' with rest }) i { run' with rest } wait' := by
  obtain ⟨hthere, hnone⟩ := hwait
  unfold System.join at hjoin
  split at hjoin
  · rename_i result ended hended
    cases hjoin
    rcases result with e | _
    · exact ⟨_, .failed i e, hthere, nofun⟩
    · have hspares : Spares s (s.setRun i { run with ended, rest }) i := by
        refine spares_setRun hget fun _ e he => ?_
        rw [hended] at he
        exact (List.mem_cons.mp he).resolve_left nofun
      exact ⟨_, .joined i, hthere, fun hfailed =>
        ⟨(hnone hfailed).1, hspares.reported (hnone hfailed).2⟩⟩
  · rename_i hended
    split at hjoin
    · rename_i hall
      cases hjoin
      refine ⟨_, .ended i, fun hfailed => ?_⟩
      obtain ⟨hguarded, hreported⟩ := hnone hfailed
      rcases hthere with hnil | ⟨lane, hmem, hrun⟩
      · exact .inl (lanesOf_eq_nil hnil.symm)
      · have hfinished : lane.finished = true := by
          simpa [hrun] using List.all_eq_true.mp hall lane hmem
        have hstopping : Stopping s run := hgood.stopping hheeding hmine hstops hget hguarded
          hreported hended hmem hrun hfinished
        exact .inr hstopping
    · cases hjoin

/-- A run makes the token of its lanes. -/
theorem waitAt_child (hnone : s.AllLanes i fun _ => False) (hwait : WaitAt s i run .before)
    (rest : Consuming.Action Group.Progress) :
    WaitAt ((s.answerRun i run (.childToken run.cancel)).2.setRun i { run with rest }) i
      { run with rest } (.waiting (lanesOf run.group) false) := by
  refine ⟨.inl rfl, fun _ => ⟨fun token hmine => ?_, fun lane hmem hrun => ?_⟩⟩
  · change Function.update s.stopper (s.tokens.addChild run.cancel).1 (some i) token = some i at hmine
    show (s.tokens.addChild run.cancel).2.Sheltered run.cancel token
    by_cases htoken : token = (s.tokens.addChild run.cancel).1
    · rw [htoken]
      exact Tokens.sheltered_addChild s.tokens run.cancel
    · rw [Function.update_of_ne htoken] at hmine
      exact absurd hmine (hwait token)
  · exact (hnone lane hmem hrun).elim

/-- Whatever a run is answered, it notes what is true. -/
theorem waitAt_answerRun (hgood : Good none s) (hheeding : Heeding s) (hget : s.runs[i]? = some run)
    {r : Request} {next : Requests.Answer r → Consuming.Action Group.Progress}
    (hrest : run.rest = .ask r next) {wait : Wait}
    (hobeys : run.rest.Obeys (Waits run.group) Waited wait) (hwait : WaitAt s i run wait)
    {a : Requests.Answer r} (hanswer : (s.answerRun i run r).1 = some (a, run'))
    (rest : Consuming.Action Group.Progress) :
    ∃ wait', Waits run.group wait r a wait' ∧
      WaitAt ((s.answerRun i run r).2.setRun i { run' with rest }) i { run' with rest } wait' := by
  obtain ⟨stage, hrun⟩ := hgood.run i run hget nofun
  have hstage := hrun.stage
  have hruns := hrun.obeys
  rw [hrest] at hobeys hruns
  obtain ⟨a', wait', hm⟩ := hobeys.allowed
  obtain ⟨b', stage', hm'⟩ := hruns.allowed
  cases hm with
  | session => exact ⟨.before, .session a, hwait⟩
  | child parent =>
    cases hm' with
    | child =>
      cases hanswer
      exact ⟨_, .child _ _, waitAt_child hstage.1 hwait rest⟩
  | @spawned number consumer stops =>
    cases hm' with
    | spawned lanes =>
      cases hanswer
      refine ⟨_, .spawned, .inr ⟨_, List.mem_append_right _ (List.mem_singleton_self _), rfl⟩,
        fun hfailed => ?_⟩
      have hspares : Spares s ((s.spawn (.fresh i consumer [lanes, run.delivery])).setRun i
          { run with rest }) i :=
        (spares_spawn s i consumer _ i).trans (spares_setRun hget fun _ _ he => he)
      obtain ⟨hguarded, hreported⟩ := hwait.2 hfailed
      exact ⟨hguarded, hspares.reported hreported⟩
  | stopped token =>
    cases hanswer
    exact ⟨_, .stopped token, hwait.1, nofun⟩
  | left token =>
    cases hanswer
    refine ⟨_, .left token, fun hfailed => (hwait hfailed).imp_right fun ⟨stop, hmem, hc⟩ => ?_⟩
    exact ⟨stop, hmem, (Tokens.isCancelled_dropChild s.tokens token stop).trans hc⟩
  | _ =>
    -- it waits for the next lane to end
    cases hm' <;>
      exact waitAt_join hgood hheeding hget hstage.2.1 hstage.2.2.2 hwait hanswer rest

/-- An event that is of no run. -/
theorem Minded.of_leads (h : Minded s) (hleads : Leads none s s')
    (hlength : s'.runs.length = s.runs.length) (hspares : ∀ k, Spares s s' k) : Minded s' where
  stoppers token k hmine := by
    rw [hlength]
    exact h.stoppers token k (((hspares k).stopper token).mp hmine)
  run k run' hget' := by
    have hlt : k < s.runs.length := hlength ▸ (List.getElem?_eq_some_iff.mp hget').1
    obtain ⟨found, hfound, hfollows, hsame⟩ :=
      hleads.runs k s.runs[k] (List.getElem?_eq_getElem hlt)
    obtain rfl := Option.some.inj (hget'.symm.trans hfound)
    obtain ⟨wait, hobeys, hwait⟩ := h.run k _ (List.getElem?_eq_getElem hlt)
    rw [(hsame nofun).2, hfollows.group]
    exact ⟨wait, hobeys, hwait.mono hfollows hleads (hspares k)⟩

theorem length_runs_goOn (s : System) (j : Nat) (lane : Worker)
    (p : Consuming.Action (Lane ⊕ Except ConsumeError Unit)) :
    (s.goOn j lane p).runs.length = s.runs.length := by
  rcases p with (reading | result) | _
  · rfl
  · exact List.length_modify ..
  · rfl

theorem length_runs_runLane (s : System) (j : Nat) (w : (r : Handler.Request) → Requests.Answer r) :
    (s.runLane j w).runs.length = s.runs.length := by
  unfold System.runLane
  split
  · rfl
  · rename_i lane _
    split
    · rfl
    · rename_i r next _
      have hruns := (beside_answerLane s j w r).runs
      generalize s.answerLane j w r = p at hruns
      obtain ⟨a | a, s'⟩ := p
      · exact congrArg List.length hruns
      · exact (length_runs_goOn s' j lane _).trans (congrArg List.length hruns)

/-- A run that has to wait changes nothing. -/
theorem answerRun_of_none {r : Request} (h : (s.answerRun i run r).1 = none) :
    (s.answerRun i run r).2 = s := by
  cases r with
  | session r => cases h
  | childToken parent => cases h
  | cancelToken token => cases h
  | dropToken token => cases h
  | spawnLane number consumer stops => cases h
  | _ => rfl

/-- A run cancels no token of another one's lanes. -/
theorem Good.cancels (hgood : Good none s) (hget : s.runs[i]? = some run) {token : TokenId}
    {next : Requests.Answer (Request.cancelToken token) → Consuming.Action Group.Progress}
    (hrest : run.rest = .ask (.cancelToken token) next) : s.stopper token = some i := by
  obtain ⟨stage, hrun⟩ := hgood.run i run hget nofun
  have hstage := hrun.stage
  have hobeys := hrun.obeys
  rw [hrest] at hobeys
  obtain ⟨a, stage', hm⟩ := hobeys.allowed
  cases hm with
  | stopped => exact hstage.2.1

/-- A run that has gone on is set, and the other ones have been spared. -/
theorem Minded.setRun (h : Minded s) (hget : s.runs[i]? = some run) (hleads : Leads (some i) s s')
    (hruns : s'.runs = s.runs) (hspares : ∀ k ≠ i, Spares s s' k) (hfollows : run.Follows run')
    {wait : Wait} (hobeys : run'.rest.Obeys (Waits run'.group) Waited wait)
    (hwait : WaitAt (s'.setRun i run') i run' wait) : Minded (s'.setRun i run') where
  stoppers token k hmine := by
    have hlength : (s'.setRun i run').runs.length = s.runs.length :=
      List.length_set.trans (congrArg List.length hruns)
    rw [hlength]
    by_cases hk : k = i
    · exact hk ▸ (List.getElem?_eq_some_iff.mp hget).1
    · exact h.stoppers token k (((hspares k hk).stopper token).mp hmine)
  run k found hfound := by
    change (s'.runs.set i run')[k]? = some found at hfound
    rcases getElem?_set_cases hfound with ⟨rfl, rfl⟩ | ⟨hk, hfound⟩
    · exact ⟨wait, hobeys, hwait⟩
    · rw [hruns] at hfound
      obtain ⟨wait, hobeys, hwait⟩ := h.run k found hfound
      have hset : Spares s' (s'.setRun i run') k :=
        spares_setRun (hruns ▸ hget) fun heq => absurd heq.symm hk
      exact ⟨wait, hobeys, hwait.mono ⟨rfl, rfl, rfl⟩
        (hleads.trans (leads_setRun (hruns ▸ hget) hfollows)) ((hspares k hk).trans hset)⟩

theorem minded_runRun (hgood : Good none s) (hheeding : Heeding s) (h : Minded s) (i : Nat) :
    Minded (s.runRun i) := by
  cases hget : s.runs[i]? with
  | none =>
    simp only [System.runRun, hget]
    exact h
  | some run =>
  cases hrest : run.rest with
  | done result =>
    simp only [System.runRun, hget, hrest]
    exact h
  | ask r next =>
  obtain ⟨wait, hobeys, hwait⟩ := h.run i run hget
  obtain ⟨hleads, hruns, hsame⟩ := leads_answerRun hgood.proper i run r
  have hspares : ∀ k ≠ i, Spares s (s.answerRun i run r).2 k := fun k hne => by
    refine spares_answerRun hgood run r k (fun _ _ => hne.symm) fun token hr hmine => ?_
    subst hr
    exact hne (Option.some.inj (hmine.symm.trans (hgood.cancels hget hrest)))
  rw [System.runRun_eq hget hrest]
  cases hanswer : (s.answerRun i run r).1 with
  | none =>
    have hstays : System.hearRun i next (s.answerRun i run r) = s := by
      rw [← Prod.eta (s.answerRun i run r), hanswer]
      exact answerRun_of_none hanswer
    rwa [hstays]
  | some p =>
    obtain ⟨a, run'⟩ := p
    obtain ⟨group, cancel, delivery⟩ := hsame a run' hanswer
    obtain ⟨wait', hm, hwait'⟩ :=
      waitAt_answerRun hgood hheeding hget hrest hobeys hwait hanswer (onward (next a))
    rw [hrest] at hobeys
    have hgoes : System.hearRun i next (s.answerRun i run r) =
        (s.answerRun i run r).2.setRun i { run' with rest := onward (next a) } := by
      rw [← Prod.eta (s.answerRun i run r), hanswer]
      rfl
    rw [hgoes]
    refine h.setRun hget hleads hruns hspares ⟨group, cancel, delivery⟩ ?_ hwait'
    show (onward (next a)).Obeys (Waits run'.group) Waited wait'
    rw [group]
    exact waits_onward (hobeys.next hm)

/-! ## All events -/

/-- A run that begins spares the other ones. -/
theorem spares_begin (s : System) (run : Run) (i : Nat) :
    Spares s { s with runs := s.runs ++ [run] } i where
  stopper _ := .rfl
  sheltered _ _ _ h := h
  reported h lane hmem hrun e he := by
    obtain ⟨found, hget, herror⟩ := h lane hmem hrun e he
    exact ⟨found, (List.getElem?_append_left (List.getElem?_eq_some_iff.mp hget).1).trans hget, herror⟩

/-- A run begins, which has no token for its lanes yet. -/
theorem Minded.start (h : Minded s) (g : Group) {cancel delivery : TokenId}
    (hrun : run =
      { group := g, cancel, delivery, rest := g.start true s.runs.length cancel delivery })
    (hleads : Leads none s { s with runs := s.runs ++ [run] }) :
    Minded { s with runs := s.runs ++ [run] } where
  stoppers token k hmine := by
    rw [List.length_append]
    exact Nat.lt_of_lt_of_le (h.stoppers token k hmine) (Nat.le_add_right _ _)
  run k found hget := by
    rcases getElem?_append_cases hget with hget | ⟨rfl, rfl⟩
    · obtain ⟨wait, hobeys, hwait⟩ := h.run k found hget
      exact ⟨wait, hobeys, hwait.mono ⟨rfl, rfl, rfl⟩ hleads (spares_begin s run k)⟩
    · subst hrun
      exact ⟨.before, waits_start _ cancel delivery, fun token hmine =>
        absurd (h.stoppers token _ hmine) (Nat.lt_irrefl _)⟩

theorem minded_empty : Minded {} where
  stoppers _ _ hmine := by cases hmine
  run _ _ hget := by cases hget

/-- It cancels no token that a run has made for its lanes, which only the run does. -/
def Event.Respects (s : System) : Event → Prop
  | .cancel token => s.stopper token = none
  | _ => True

instance (s : System) : (e : Event) → Decidable (e.Respects s)
  | .cancel token => inferInstanceAs (Decidable (s.stopper token = none))
  | .start .. => .isTrue trivial
  | .run _ => .isTrue trivial
  | .lane .. => .isTrue trivial
  | .other _ => .isTrue trivial
  | .newToken => .isTrue trivial

theorem Minded.step (hgood : Good none s) (hheeding : Heeding s) (h : Minded s) {e : Event}
    (hspares : e.Respects s) : Minded (s.step e) := by
  have hleads := leads_step hgood.proper e
  cases e with
  | run i => exact minded_runRun hgood hheeding h i
  | lane j w => exact h.of_leads hleads (length_runs_runLane s j w) (spares_runLane hgood j w)
  | start g cancel delivery =>
    simp only [System.step, System.start] at hleads ⊢
    split
    · rename_i hthere
      rw [if_pos hthere] at hleads
      exact h.start g rfl hleads
    · exact h
  | other a =>
    refine h.of_leads hleads ?_ fun k => ?_ <;> simp only [System.step] <;> split
    · rfl
    · rfl
    · exact spares_of_similar rfl rfl rfl fun _ => rfl
    · exact .refl s k
  | cancel token =>
    refine h.of_leads hleads rfl fun k => spares_of_same rfl rfl (fun _ => .rfl) ?_
    intro parent other hmine hsheltered
    have hne : other ≠ token := fun heq => by
      rw [heq, show s.stopper token = none from hspares] at hmine
      cases hmine
    exact (hsheltered.cancel hgood.proper hne).of_grown fun _ token hget => ⟨token, hget, rfl, rfl⟩
  | newToken =>
    exact h.of_leads hleads rfl fun k => spares_of_same rfl rfl (fun _ => .rfl) fun _ _ _ hs => hs.add

/-- Nobody but the runs cancels the tokens that they have made for their lanes. -/
def Private : System → List Event → Prop
  | _, [] => True
  | s, e :: events => e.Respects s ∧ Private (s.step e) events

instance decidablePrivate : (s : System) → (events : List Event) → Decidable (Private s events)
  | _, [] => .isTrue trivial
  | s, e :: events =>
    have := decidablePrivate (s.step e) events
    inferInstanceAs (Decidable (e.Respects s ∧ Private (s.step e) events))

theorem Minded.after (hgood : Good none s) (hheeding : Heeding s) (h : Minded s) {events : List Event}
    (hprivate : Private s events) : Minded (s.after events) := by
  induction events generalizing s with
  | nil => exact h
  | cons e events ih =>
    exact ih (hgood.step e) (hheeding.step hgood e) (h.step hgood hheeding hprivate.1) hprivate.2

/-- Whatever befalls groups and their broker, a run that has returned with success had no consumer, or
one of its tokens is cancelled. -/
theorem stopping_of_returned {events : List Event} (hprivate : Private {} events)
    (hget : (({} : System).after events).runs[i]? = some run) (hreturned : run.Returned (.ok ())) :
    run.group.consumers = [] ∨ Stopping (({} : System).after events) run := by
  have hminded := minded_empty.after good_empty (heeding_after []) hprivate
  obtain ⟨wait, hobeys, hwait⟩ := hminded.run i run hget
  rw [show run.rest = .done (.inr (.ok ())) from hreturned] at hobeys
  obtain rfl : wait = .done false := hobeys
  exact hwait rfl

/-- Has it returned with success? -/
def Run.succeeded (run : Run) : Bool :=
  match run.rest with
  | .done (.inr (.ok ())) => true
  | _ => false

theorem Run.returned_of_succeeded (h : run.succeeded = true) : run.Returned (.ok ()) := by
  unfold Run.succeeded at h
  split at h
  · assumption
  · cases h

/-- A lane is told to stop while it waits for a message, and its run returns. -/
theorem stopping_of_returned_jobs :
    let g : Group := { consumers :=
      [{ config := { queue := "jobs" }, handler := fun _ => Handling.succeed }] }
    let w : (r : Handler.Request) → Requests.Answer r := fun
      | .now | .count _ => (0 : Nat)
      | .send _ => .ok ()
      | .sleep _ | .note _ | .cancelRuns | .shutdown => ()
    let events := [.newToken, .newToken, .start g 0 1] ++ List.replicate 6 (.run 0) ++
      List.replicate 4 (.lane 0 w) ++ [.cancel 0] ++ List.replicate 4 (.lane 0 w) ++
      List.replicate 3 (.run 0)
    Private {} events ∧ ∃ run, (({} : System).after events).runs[0]? = some run ∧
      run.Returned (.ok ()) ∧ run.group.consumers.length = 1 ∧
      (run.group.consumers = [] ∨ Stopping (({} : System).after events) run) := by
  intro g w events
  have hprivate : Private {} events := by decide +kernel
  have hended : (({} : System).after events).runs[0]?.any (fun run =>
      run.succeeded && run.group.consumers.length == 1) = true := by decide +kernel
  cases hget : (({} : System).after events).runs[0]? with
  | none =>
    rw [hget] at hended
    cases hended
  | some run =>
    rw [hget] at hended
    obtain ⟨hsucceeded, hone⟩ := Bool.and_eq_true_iff.mp hended
    have hreturned := Run.returned_of_succeeded hsucceeded
    exact ⟨hprivate, run, rfl, hreturned, beq_iff_eq.mp hone,
      stopping_of_returned hprivate hget hreturned⟩

/-- With no lane to wait for a run returns at once, though nobody has stopped it. -/
theorem returned_unstopped :
    let events := [.newToken, .newToken, .start {} 0 1] ++ List.replicate 6 (.run 0)
    let run : Run := ⟨{}, 0, 1, .done (.inr (.ok ())), [], 0, none⟩
    Private {} events ∧ (({} : System).after events).runs[0]? = some run ∧ run.Returned (.ok ()) ∧
      ¬Stopping (({} : System).after events) run := by
  intro events run
  refine ⟨by decide +kernel, rfl, rfl, ?_⟩
  rintro ⟨token, hmem, hc⟩
  simp only [run, List.mem_cons, List.not_mem_nil, or_false] at hmem
  rcases hmem with rfl | rfl <;> cases hc

end Courier.Serving
