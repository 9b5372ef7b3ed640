import Courier.Proofs.Consumer.Lanes

/-!
# One step of a run, and all events

A run is answered by the broker while it declares, and then makes its token, starts its lanes and
waits for them. `good_runRun` says that each of its steps keeps the invariant, `Good.step` that
every event does.
-/

namespace Courier.Serving

open Memory (Activity)
open Tokens (Later)
open Stage (told concluded)

variable {s s' : System} {gone : Option TokenId} {i : Nat} {run run' : Run} {stage stage' : Stage}
  {c : ChannelId}

theorem Run.follows_told (run : Run) (r : Transport.Request) (a : Requests.Answer r) :
    run.Follows (run.told r a) := by
  have htold : ∀ a, run.Follows (run.toldOf a) := by
    rintro (e | _) <;> exact ⟨rfl, rfl, rfl⟩
  unfold Run.told
  split
  · exact htold _
  · exact htold _
  · exact htold _
  · exact ⟨rfl, rfl, rfl⟩

/-- No request makes a delivery. -/
theorem made_request_ne_delivery (m : Memory) (r : Transport.Request) (delivery : DeliveryId) :
    Activity.made m (.request r) ≠ some (.delivery delivery) := by
  intro hmade
  cases r with
  | consume =>
    simp only [Activity.made] at hmade
    split at hmade <;> cases hmade
  | _ => cases hmade

theorem RunAt.same (h : RunAt s i run stage) (hlanes : s'.lanes = s.lanes)
    (hstopper : s'.stopper = s.stopper) (htokens : s'.tokens = s.tokens) : RunAt s' i run stage :=
  h.mono (continues_of_lanes hlanes i) (fun _ hmine => hstopper ▸ hmine) fun _ _ hl => htokens ▸ hl

theorem System.runRun_eq (hget : s.runs[i]? = some run) {r : Consuming.Request}
    {next : Requests.Answer r → Consuming.Action Group.Progress} (hrest : run.rest = .ask r next) :
    s.runRun i = System.hearRun i next (s.answerRun i run r) := by
  simp only [System.runRun, hget, hrest]

/-- A run goes on, and neither the broker nor its channels are concerned. -/
theorem RunGood.goOn (h : RunGood s i run stage) (s' : System) {r : Consuming.Request}
    {a : Requests.Answer r} {next : Requests.Answer r → Consuming.Action Group.Progress}
    (hrest : run.rest = .ask r next)
    (hm : Runs i run.group run.cancel run.delivery stage r a stage') (hhistory : s'.history = s.history)
    (hmaker : s'.maker = s.maker) (hlater : Later gone s.tokens s'.tokens)
    (hchannel : stage'.channel? = stage.channel?) (hclosed : ∀ c result, stage' ≠ .closed c result)
    (hstage : RunAt s' i run stage') {ended : List (Except ConsumeError Unit)} :
    RunGood s' i { run with rest := onward (next a), ended } stage' := by
  have hobeys := h.obeys
  rw [hrest] at hobeys
  obtain ⟨hobeys, hturned⟩ := onward_obeys (hobeys.next hm)
  refine ⟨hobeys, hturned, hlater.root _ h.root, hlater.stays h.delivery, ?_,
    fun c result hc => absurd hc (hclosed c result), ?_, hstage.of_alike rfl⟩
  · rw [broker_eq hhistory, hmaker, hchannel]
    exact h.channels
  · rw [hmaker]
    exact h.deliveries

/-- Tokens are cancelled. -/
theorem Good.setTokens (h : Good none s) {tokens : Tokens} (hlater : Later none s.tokens tokens) :
    Good none (s.setTokens tokens) :=
  h.frame rfl rfl rfl rfl rfl (hlater.woken []) nofun fun _ _ hj => List.mem_append_left _ hj

/-- A run uses what it has made. -/
theorem RunGood.owns (h : RunGood s i run stage) {r : Transport.Request}
    {next : Requests.Answer r → Consuming.Action Group.Progress}
    (hrest : run.rest = .ask (.session r) next) : May s.maker (some (.run i)) (.request r) := by
  have hobeys := h.obeys
  rw [hrest] at hobeys
  obtain ⟨a, stage', hm⟩ := hobeys.allowed
  intro o ho
  cases hm with
  | opened | unopened => cases ho
  | exchange | queue | binding | closed =>
    cases ho
    exact (h.channels.mine _ rfl).1
  | dropped c result =>
    cases ho
    exact h.closed c result rfl

section Steps

variable (h : Good none s) (hget : s.runs[i]? = some run) (hgood : RunGood s i run stage)

include h hget hgood

/-- The broker answers a request. -/
theorem good_runSession {r : Transport.Request} {a : Requests.Answer r}
    {next : Requests.Answer r → Consuming.Action Group.Progress}
    (hrest : run.rest = .ask (.session r) next)
    (hanswer : (Memory.answer r s.broker).1 = a)
    (hmoves : Runs i run.group run.cancel run.delivery stage (.session r) a stage')
    (hchannels : Holds (s.broker.act (.request r))
      (made s.maker s.broker (some (.run i)) (.request r)) (.run i) stage'.channel?)
    (hclosed : ∀ c result, stage' = .closed c result → stage.channel? = some c)
    (hstage : RunAt s i (run.told r a) stage') : Good none (s.runRun i) := by
  subst hanswer
  have hbefall : Good (some (.run i)) (s.befall (some (.run i)) (.request r)) :=
    (h.except _).befall (hgood.owns hrest) fun o ho => by
      cases ho
      exact (List.getElem?_eq_some_iff.mp hget).1
  obtain ⟨hgroup, hcancel, hdelivery⟩ := run.follows_told r (Memory.answer r s.broker).1
  have hobeys := hgood.obeys
  rw [hrest] at hobeys
  have hnext := hobeys.next hmoves
  rw [← hgroup, ← hcancel, ← hdelivery] at hnext
  obtain ⟨hobeys, hturned⟩ := onward_obeys hnext
  rw [System.runRun_eq hget hrest]
  refine hbefall.setRun ⟨hobeys, hturned, ?_, ?_, ?_, fun c result hc => ?_, fun delivery hmine => ?_,
    (hstage.same rfl rfl rfl).of_alike rfl⟩
  · exact hcancel ▸ hgood.root
  · exact hdelivery ▸ hgood.delivery
  · rw [broker_befall]
    exact hchannels
  · exact h.sane.made_eq_some.mpr (.inl (hgood.channels.mine c (hclosed c result hc)).1)
  · rcases h.sane.made_eq_some.mp hmine with hold | ⟨hnew, -⟩
    · exact hgood.deliveries delivery hold
    · exact made_request_ne_delivery _ _ _ hnew

/-- A declaration is made or refused. -/
theorem good_declaration {r : Transport.Request} {queue : String} {todo : List String}
    {next : Requests.Answer r → Consuming.Action Group.Progress}
    (hrest : run.rest = .ask (.session r) next) (hplace : stage = .declaring c (queue :: todo) (.ok ()))
    (hcloses : ∀ c, r.closes c = false)
    (hmade : Activity.made s.broker (.request r) = none) {a : Requests.Answer r}
    (hanswer : (Memory.answer r s.broker).1 = a) {told' : Except TransportError Unit}
    (hmoves : Runs i run.group run.cancel run.delivery stage (.session r) a (told c queue todo told'))
    (htold : run.told r a = run.toldOf told') : Good none (s.runRun i) := by
  subst hplace
  obtain ⟨hnone, hrefused, htodo⟩ := hgood.stage
  obtain ⟨-, htodo⟩ := htodo rfl
  have hmore : run.declared < (declarations run.group.consumers).length := by
    have hlength := congrArg List.length htodo
    rw [List.length_cons, List.length_drop] at hlength
    omega
  refine good_runSession h hget hgood hrest hanswer hmoves ?_ (fun c' result hc => ?_) ?_
  · have hkept : Holds (s.broker.act (.request r))
        (made s.maker s.broker (some (.run i)) (.request r)) (.run i) (some c) :=
      hgood.channels.kept h.sane (fun c hc => by rw [hmade] at hc; cases hc) fun c _ => hcloses c
    rcases told' with e | _ <;> exact hkept
  · rcases told' with e | _ <;> cases hc
  · rw [htold]
    rcases told' with e | _
    · refine ⟨hnone, ⟨queue, e, rfl, rfl, ?_⟩, nofun⟩
      rw [← List.head?_drop]
      show ((declarations run.group.consumers).drop run.declared).head? = _
      rw [← htodo, List.head?_cons]
    · refine ⟨hnone, hrefused, fun _ => ⟨hmore, ?_⟩⟩
      show todo = (declarations run.group.consumers).drop (run.declared + 1)
      rw [← List.tail_drop, ← htodo, List.tail_cons]

/-- A run waits for the next lane to end. -/
theorem good_join {lanes : TokenId}
    {next : Requests.Answer (Consuming.Request.join i) → Consuming.Action Group.Progress}
    (hrest : run.rest = .ask (.join i) next) (hplace : stage = .running lanes []) :
    Good none (s.runRun i) := by
  subst hplace
  have hs := h.except (some (.run i))
  have hlater := h.proper.later_refl none
  rw [System.runRun_eq hget hrest]
  simp only [System.answerRun, System.join]
  split
  · exact hs.setRun (hgood.goOn s hrest (.joined lanes _) rfl rfl hlater rfl nofun hgood.stage)
  · split
    · rename_i hall
      refine hs.setRun (hgood.goOn s hrest (.ended lanes) rfl rfl hlater rfl nofun ?_)
      refine ⟨hgood.stage.1, hgood.stage.2.1, fun lane hmem hrun => ?_⟩
      have hlane := List.all_eq_true.mp hall lane hmem
      simpa [hrun] using hlane
    · exact h

/-- A run makes the token for its lanes. -/
theorem good_child
    {next : Requests.Answer (Consuming.Request.childToken run.cancel) → Consuming.Action Group.Progress}
    (hrest : run.rest = .ask (.childToken run.cancel) next) (hplace : stage = .declared) :
    Good none (s.runRun i) := by
  subst hplace
  obtain ⟨hnone, htold⟩ := hgood.stage
  obtain ⟨hnew, hexists⟩ := Tokens.addChild_fst s.tokens run.cancel
  have hlater := h.proper.later_addChild run.cancel
  obtain ⟨root, hroot, hparent⟩ := hgood.root
  have hlinked := Tokens.linked_addChild hroot hparent
  rw [System.runRun_eq hget hrest]
  simp only [System.answerRun]
  generalize s.tokens.addChild run.cancel = p at hnew hexists hlater hlinked
  obtain ⟨token, tokens⟩ := p
  dsimp only at hnew hexists hlater hlinked
  subst hnew
  have hne : ∀ token i, s.stopper token = some i → token ≠ s.tokens.tokens.length :=
    fun token i hmine heq => absurd (h.stoppers token i hmine) (heq ▸ Nat.lt_irrefl _)
  have hmade : Good (some (.run i)) { s with
      tokens, stopper := Function.update s.stopper s.tokens.tokens.length (some i) } := by
    refine (h.except _).mono rfl rfl rfl rfl hlater nofun (fun token i' hmine => ?_)
      (fun token i' hmine => ?_) fun _ _ hj => hj
    · exact (Function.update_of_ne (hne token i' hmine) ..).trans hmine
    · by_cases heq : token = s.tokens.tokens.length
      · exact heq ▸ hexists
      · have hold : s.stopper token = some i' := (Function.update_of_ne heq ..).symm.trans hmine
        exact hlater.stays (h.stoppers token i' hold)
  refine hmade.setRun (hgood.goOn { s with tokens, stopper := _ } hrest (.child _) rfl rfl hlater rfl
    nofun ⟨htold, ?_, hlinked, ?_⟩)
  · exact Function.update_self ..
  · exact fun lane hmem hrun => (hnone lane hmem hrun).elim

/-- A run starts a lane. -/
theorem good_spawned {lanes : TokenId} {consumer : Consumer} {todo : List Consumer}
    {next : Requests.Answer (Consuming.Request.spawnLane i consumer [lanes, run.delivery]) →
      Consuming.Action Group.Progress}
    (hrest : run.rest = .ask (.spawnLane i consumer [lanes, run.delivery]) next)
    (hplace : stage = .running lanes (consumer :: todo)) : Good none (s.runRun i) := by
  subst hplace
  obtain ⟨htold, hmine, hlinked, hall⟩ := hgood.stage
  rw [System.runRun_eq hget hrest]
  have hspawned := (h.except (some (.run i))).spawn (List.getElem?_eq_some_iff.mp hget).1 consumer
    [lanes, run.delivery]
  refine hspawned.setRun (hgood.goOn (s.spawn _) hrest (.spawned lanes consumer todo) rfl rfl
    (h.proper.later_refl none) rfl nofun ⟨htold, hmine, hlinked, fun lane hmem hrun => ?_⟩)
  rcases List.mem_append.mp hmem with hmem | hmem
  · exact hall lane hmem hrun
  · rw [List.mem_singleton.mp hmem]
    rfl

/-- A run stops its lanes. -/
theorem good_stopped {lanes : TokenId}
    {next : Requests.Answer (Consuming.Request.cancelToken lanes) → Consuming.Action Group.Progress}
    (hrest : run.rest = .ask (.cancelToken lanes) next) (hplace : stage = .running lanes []) :
    Good none (s.runRun i) := by
  subst hplace
  have hlater := h.proper.later_cancel lanes
  obtain ⟨htold, hmine, hlinked, hall⟩ := hgood.stage
  rw [System.runRun_eq hget hrest]
  refine ((h.setTokens hlater).except _).setRun (hgood.goOn (s.setTokens _) hrest (.stopped lanes)
    rfl rfl (hlater.woken []) rfl nofun ⟨htold, hmine, ?_, hall⟩)
  exact hlater.linked _ _ nofun hlinked

/-- A run lets go of the token of its lanes. -/
theorem good_left {lanes : TokenId}
    {next : Requests.Answer (Consuming.Request.dropToken lanes) → Consuming.Action Group.Progress}
    (hrest : run.rest = .ask (.dropToken lanes) next) (hplace : stage = .leaving lanes) :
    Good none (s.runRun i) := by
  subst hplace
  have hlater := h.proper.later_dropChild lanes
  obtain ⟨htold, hmine, hall⟩ := hgood.stage
  rw [System.runRun_eq hget hrest]
  have hdropped : Good (some (.run i)) { s with tokens := s.tokens.dropChild lanes } := by
    refine (h.except _).frame rfl rfl rfl rfl rfl hlater (fun token i' hgone hother => ?_)
      fun _ _ hj => hj
    cases hgone
    rw [hmine] at hother
    rw [Option.some.inj hother]
  exact hdropped.setRun (hgood.goOn { s with tokens := s.tokens.dropChild lanes } hrest (.left lanes)
    rfl rfl hlater rfl nofun ⟨htold, hall⟩)

end Steps

/-- Whatever a run does next, the invariant is kept. -/
theorem good_runRun (h : Good none s) (i : Nat) : Good none (s.runRun i) := by
  cases hget : s.runs[i]? with
  | none =>
    simp only [System.runRun, hget]
    exact h
  | some run =>
  cases hrest : run.rest with
  | done result =>
    simp only [System.runRun, hget, hrest]
    exact h
  | ask r next =>
  obtain ⟨stage, hgood⟩ := h.run i run hget nofun
  have hobeys := hgood.obeys
  rw [hrest] at hobeys
  -- the stage says which request this is
  obtain ⟨a, stage', hm⟩ := hobeys.allowed
  have opened : stage = .fresh → ∀ {next}, run.rest = .ask (.session .openChannel) next →
      Good none (s.runRun i) := fun hplace next hrest => by
    subst hplace
    obtain ⟨hnone, hzero, hrefused⟩ := hgood.stage
    refine good_runSession h hget hgood hrest rfl (.opened s.broker.channels.length)
      (hgood.channels.opened h.sane) nofun ⟨hnone, hrefused, fun _ => ?_⟩
    show run.declared ≤ _ ∧ _ = (declarations run.group.consumers).drop run.declared
    rw [hzero, List.drop_zero]
    exact ⟨Nat.zero_le _, rfl⟩
  cases hm with
  | opened => exact opened rfl hrest
  | unopened => exact opened rfl hrest
  | exchange a =>
    exact good_declaration h hget hgood hrest rfl (fun _ => rfl) rfl rfl (.exchange _) rfl
  | queue a =>
    exact good_declaration h hget hgood hrest rfl (fun _ => rfl) rfl rfl (.queue _) rfl
  | binding a =>
    exact good_declaration h hget hgood hrest rfl (fun _ => rfl) rfl rfl (.binding _) rfl
  | closed c result =>
    refine good_runSession h hget hgood hrest rfl (.closed c result _)
      (hgood.channels.shut h.sane (decide_eq_true rfl) rfl) (fun c' result' hc => ?_)
      ⟨hgood.stage.1, hgood.stage.2.1, fun hok => ?_⟩
    · cases hc
      rfl
    · subst hok
      -- nothing is left to be declared
      obtain ⟨hnone, hrefused, htodo⟩ := hgood.stage
      obtain ⟨hle, hnil⟩ := htodo rfl
      exact ⟨hrefused, Nat.le_antisymm hle (List.drop_eq_nil_iff.mp hnil.symm)⟩
  | dropped c result =>
    have hkept : Holds (s.broker.act (.request (.dropChannel c)))
        (made s.maker s.broker (some (.run i)) (.request (.dropChannel c))) (.run i) none :=
      hgood.channels.kept h.sane nofun nofun
    refine good_runSession h hget hgood hrest rfl (.dropped c result) ?_
      (fun c' result' hc => ?_) ?_
    · rcases result with e | _ <;> exact hkept
    · rcases result with e | _ <;> cases hc
    · obtain ⟨hnone, htold, hall⟩ := hgood.stage
      rcases result with e | _
      · exact ⟨hnone, htold⟩
      · exact ⟨hnone, hall rfl⟩
  | child => exact good_child h hget hgood hrest rfl
  | spawned lanes consumer todo => exact good_spawned h hget hgood hrest rfl
  | joined lanes => exact good_join h hget hgood hrest rfl
  | ended lanes => exact good_join h hget hgood hrest rfl
  | stopped lanes => exact good_stopped h hget hgood hrest rfl
  | left lanes => exact good_left h hget hgood hrest rfl

/-! ## All events -/

/-- Every event keeps the invariant. -/
theorem Good.step (h : Good none s) (e : Event) : Good none (s.step e) := by
  cases e with
  | run i => exact good_runRun h i
  | lane j w => exact good_runLane h j w
  | start g cancel delivery =>
    simp only [System.step, System.start]
    split
    · rename_i hthere
      simp only [Bool.and_eq_true, Option.any_eq_true, Option.isNone_iff_eq_none,
        decide_eq_true_eq] at hthere
      exact h.start g hthere.1 hthere.2
    · exact h
  | other a =>
    simp only [System.step]
    split
    · rename_i hmay
      refine h.befall (fun o ho => ?_) nofun
      rw [ho] at hmay
      exact Option.isNone_iff_eq_none.mp hmay
    · exact h
  | cancel token => exact h.setTokens (h.proper.later_cancel token)
  | newToken => exact h.frame rfl rfl rfl rfl rfl h.proper.later_add nofun fun _ _ hj => hj

theorem Good.after (h : Good none s) (events : List Event) : Good none (s.after events) := by
  induction events generalizing s with
  | nil => exact h
  | cons e events ih => exact ih (h.step e)

theorem good_after (events : List Event) : Good none (({} : System).after events) :=
  good_empty.after events

end Courier.Serving
