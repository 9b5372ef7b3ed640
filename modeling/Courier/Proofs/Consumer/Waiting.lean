import Courier.Proofs.Consumer.Heeding

/-!
# How a run waits for its lanes

`Waits` is the protocol of a run as far as its lanes are concerned: it starts all that there are to be,
notes whether one of them has failed, cancels their token only then, and comes to an end when there is
none left. It returns with success only if none has failed (`waits_start`, `waits_turn`).

`WaitAt` says that what it has noted is true: as long as no lane has failed, the token of its lanes is
cancelled with its own one only, and a lane that has failed is one that it has yet to look at. That
stays true whatever spares the run (`WaitAt.mono`). A lane that goes on spares all runs
(`spares_runLane`), and so does what another run is answered (`spares_answerRun`).
-/

namespace Courier.Serving

open Consuming (Request)

variable {s s' : System} {i k : Nat} {run run' : Run} {lane : Worker}

/-! ## How a run waits -/

/-- How far a run has come with its lanes. -/
inductive Wait where
  /-- It has no token for them yet. -/
  | before
  /-- These are to be started yet, and one of them has failed or none has. -/
  | waiting (todo : List Consumer) (failed : Bool)
  /-- All have ended. -/
  | done (failed : Bool)

/-- The steps of a run of a group, as far as its lanes are concerned. -/
inductive Waits (g : Group) : Wait → (r : Request) → Requests.Answer r → Wait → Prop where
  | session {r : Transport.Request} (a : Requests.Answer r) :
      Waits g .before (.session r) a .before
  | child (parent lanes : TokenId) :
      Waits g .before (.childToken parent) lanes (.waiting (lanesOf g) false)
  | spawned {number : Nat} {consumer : Consumer} {stops : List TokenId} {todo : List Consumer}
      {failed : Bool} : Waits g (.waiting (consumer :: todo) failed)
        (.spawnLane number consumer stops) () (.waiting todo failed)
  | joined {failed : Bool} (number : Nat) :
      Waits g (.waiting [] failed) (.join number) (some (.ok ())) (.waiting [] failed)
  | failed {failed : Bool} (number : Nat) (e : ConsumeError) :
      Waits g (.waiting [] failed) (.join number) (some (.error e)) (.waiting [] true)
  | stopped (lanes : TokenId) :
      Waits g (.waiting [] true) (.cancelToken lanes) () (.waiting [] true)
  | ended {failed : Bool} (number : Nat) :
      Waits g (.waiting [] failed) (.join number) none (.done failed)
  | left {failed : Bool} (lanes : TokenId) :
      Waits g (.done failed) (.dropToken lanes) () (.done failed)

/-- What a run has noted after a turn. It returns with success only if no lane has failed. -/
def Waited : Group.Progress → Wait → Prop
  | .inl r, wait => wait = .waiting [] r.firstError.isSome
  | .inr (.ok ()), wait => wait = .done false
  | .inr (.error _), _ => True

section Obeys

variable {g : Group} {failed : Bool}

theorem waits_spawnLanes (number : Nat) (consumer : Consumer) (stops : List TokenId) (n : Nat)
    (todo : List Consumer) :
    (Group.spawnLanes number consumer stops n).Obeys (Waits g)
      (fun _ wait => wait = .waiting todo failed)
      (.waiting (List.replicate n consumer ++ todo) failed) := by
  induction n with
  | zero => rfl
  | succ n ih =>
    refine ⟨⟨(), _, .spawned⟩, fun a wait hm => ?_⟩
    cases hm with
    | spawned => exact ih

theorem waits_spawnAll (number : Nat) (stops : List TokenId) (consumers : List Consumer) :
    (Group.spawnAll number stops consumers).Obeys (Waits g)
      (fun _ wait => wait = .waiting [] failed)
      (.waiting (consumers.flatMap fun consumer =>
        List.replicate consumer.config.lanes consumer) failed) := by
  induction consumers with
  | nil => rfl
  | cons consumer rest ih =>
    exact ((waits_spawnLanes number consumer stops _ _).mono fun _ _ heq => heq ▸ ih).bind

/-- A run declares, and starts its lanes. -/
theorem waits_start (number : Nat) (cancel delivery : TokenId) :
    (g.start true number cancel delivery).Obeys (Waits g) Waited .before := by
  have hdeclare : (Consuming.session g.declare).Obeys (Waits g) (fun _ wait => wait = .before)
      .before :=
    obeys_session (fun _ a => .session a) (fun _ _ _ hm => by cases hm; rfl) g.declare
  refine (hdeclare.mono fun declared wait heq => ?_).bind
  subst heq
  rcases declared with e | _
  · trivial
  refine ⟨⟨(0 : Nat), _, .child cancel 0⟩, fun lanes wait hm => ?_⟩
  cases hm with
  | child =>
    refine ((waits_spawnAll number [lanes, delivery] g.consumers).mono fun _ wait heq => ?_).bind
    exact heq

/-- A run waits for its lanes. -/
theorem waits_turn (r : Group.Running) :
    r.turn.Obeys (Waits g) Waited (.waiting [] r.firstError.isSome) := by
  generalize hfailed : r.firstError.isSome = failed
  refine ⟨⟨none, _, .ended _⟩, fun joined wait hm => ?_⟩
  cases hm with
  | joined =>
    rw [← hfailed]
    rfl
  | ended =>
    refine ⟨⟨(), _, .left _⟩, fun a wait hm => ?_⟩
    cases hm with
    | left =>
      show Waited (.inr r.result) _
      unfold Group.Running.result
      cases hfirst : r.firstError with
      | none => rw [← hfailed, hfirst]; rfl
      | some e => trivial
  | failed _ e =>
    cases hfirst : r.firstError with
    | some first =>
      show Wait.waiting [] true = .waiting [] r.firstError.isSome
      rw [hfirst]
      rfl
    | none =>
      refine ⟨⟨(), _, .stopped _⟩, fun a wait hm => ?_⟩
      cases hm with
      | stopped => rfl

/-- A run that has done its turn takes the next one. -/
theorem waits_onward {p : Consuming.Action Group.Progress} {wait : Wait}
    (h : p.Obeys (Waits g) Waited wait) : (onward p).Obeys (Waits g) Waited wait := by
  rcases p with (running | result) | _
  · obtain rfl : wait = _ := h
    exact waits_turn running
  · exact h
  · exact h

end Obeys

/-! ## What runs have noted -/

namespace System

/-- The tokens of a run's lanes are cancelled only with its own one. -/
def Guarded (s : System) (i : Nat) (run : Run) : Prop :=
  ∀ token, s.stopper token = some i → s.tokens.Sheltered run.cancel token

/-- The lanes of a run that have failed are yet to be looked at by it. -/
def Reported (s : System) (i : Nat) : Prop :=
  ∀ lane ∈ s.lanes, lane.run = i → ∀ e, lane.rest = .done (.inr (.error e)) →
    ∃ run, s.runs[i]? = some run ∧ .error e ∈ run.ended

end System

/-- What is true of what a run has noted. -/
def WaitAt (s : System) (i : Nat) (run : Run) : Wait → Prop
  | .before => ∀ token, s.stopper token ≠ some i
  | .waiting todo failed => (todo = lanesOf run.group ∨ ∃ lane ∈ s.lanes, lane.run = i) ∧
      (failed = false → s.Guarded i run ∧ s.Reported i)
  | .done failed => failed = false → run.group.consumers = [] ∨ Stopping s run

/-- What holds of all runs. -/
structure Minded (s : System) : Prop where
  stoppers : ∀ token i, s.stopper token = some i → i < s.runs.length
  run : ∀ (i : Nat) (run : Run), s.runs[i]? = some run →
    ∃ wait, run.rest.Obeys (Waits run.group) Waited wait ∧ WaitAt s i run wait

/-- Events that concern neither the token of a run's lanes nor what has come of them. -/
structure Spares (s s' : System) (i : Nat) : Prop where
  stopper : ∀ token, s'.stopper token = some i ↔ s.stopper token = some i
  sheltered : ∀ parent token, s.stopper token = some i → s.tokens.Sheltered parent token →
    s'.tokens.Sheltered parent token
  reported : s.Reported i → s'.Reported i

theorem Spares.refl (s : System) (i : Nat) : Spares s s i :=
  ⟨fun _ => .rfl, fun _ _ _ h => h, fun h => h⟩

theorem Spares.trans {s'' : System} (h : Spares s s' i) (h' : Spares s' s'' i) : Spares s s'' i where
  stopper token := (h'.stopper token).trans (h.stopper token)
  sheltered parent token hmine hs :=
    h'.sheltered parent token ((h.stopper token).mpr hmine) (h.sheltered parent token hmine hs)
  reported hr := h'.reported (h.reported hr)

/-- What a run has noted stays true. -/
theorem WaitAt.mono {wait : Wait} (h : WaitAt s i run wait) (hfollows : run.Follows run')
    {x : Option Nat} (hleads : Leads x s s') (hspares : Spares s s' i) : WaitAt s' i run' wait := by
  cases wait with
  | before => exact fun token hmine => h token ((hspares.stopper token).mp hmine)
  | waiting todo failed =>
    obtain ⟨hthere, hnone⟩ := h
    refine ⟨hthere.imp (hfollows.group ▸ ·) ?_, fun hfailed => ?_⟩
    · rintro ⟨lane, hmem, hrun⟩
      obtain ⟨j, hj⟩ := List.getElem?_of_mem hmem
      obtain ⟨lane', hj', hrun'⟩ := hleads.lanes j lane hj
      exact ⟨lane', List.mem_of_getElem? hj', hrun'.trans hrun⟩
    · obtain ⟨hguarded, hreported⟩ := hnone hfailed
      refine ⟨fun token hmine => ?_, hspares.reported hreported⟩
      have hold := (hspares.stopper token).mp hmine
      exact hfollows.cancel ▸ hspares.sheltered _ token hold (hguarded token hold)
  | done failed =>
    intro hfailed
    rw [hfollows.group]
    refine (h hfailed).imp_right fun ⟨token, hmem, hc⟩ => ⟨token, ?_, hleads.cancelled token hc⟩
    rwa [hfollows.cancel, hfollows.delivery]

/-! ## What spares a run -/

/-- Neither lanes nor runs change. -/
theorem spares_of_same (hlanes : s'.lanes = s.lanes) (hruns : s'.runs = s.runs)
    (hstopper : ∀ token, s'.stopper token = some i ↔ s.stopper token = some i)
    (hsheltered : ∀ parent token, s.stopper token = some i → s.tokens.Sheltered parent token →
      s'.tokens.Sheltered parent token) : Spares s s' i where
  stopper := hstopper
  sheltered := hsheltered
  reported h lane hmem hrun e he := by
    rw [hlanes] at hmem
    rw [hruns]
    exact h lane hmem hrun e he

theorem spares_of_similar (hlanes : s'.lanes = s.lanes) (hruns : s'.runs = s.runs)
    (hstopper : s'.stopper = s.stopper) (htokens : Tokens.Similar s.tokens s'.tokens) :
    Spares s s' i :=
  spares_of_same hlanes hruns (fun _ => by rw [hstopper]) fun _ _ _ h => h.similar htokens

theorem spares_receive (s : System) (j : Nat) (stream : StreamId) (stops : List TokenId) (i : Nat) :
    Spares s (s.receive j stream stops).2 i := by
  have hregister := Tokens.similar_foldl (fun t id => Tokens.similar_register t id j) stops s.tokens
  have hunregister := Tokens.similar_foldl (fun t id => Tokens.similar_unregister t id j) stops s.tokens
  unfold System.receive
  split
  · exact spares_of_similar rfl rfl rfl hunregister
  · split
    · exact spares_of_similar rfl rfl rfl hregister
    · exact spares_of_similar rfl rfl rfl hunregister

theorem spares_answerLane (s : System) (j : Nat) (w : (r : Handler.Request) → Requests.Answer r)
    (r : Request) (i : Nat) : Spares s (s.answerLane j w r).2 i := by
  cases r with
  | receive stream stops => exact spares_receive s j stream stops i
  | session r => exact spares_of_similar rfl rfl rfl fun _ => rfl
  | _ => exact .refl s i

/-- A lane that ends tells its run how. -/
theorem spares_goOn (hruns : lane.run < s.runs.length) (j : Nat)
    (p : Consuming.Action (Lane ⊕ Except ConsumeError Unit)) (i : Nat) :
    Spares s (s.goOn j lane p) i := by
  have waked (hp : ∀ result, p ≠ .done (.inr result)) :
      Spares s ((s.setLane j { lane with rest := p }).wake [j]) i := by
    refine ⟨fun _ => .rfl, fun _ _ _ h => h, fun h lane' hmem hrun e he => ?_⟩
    rcases List.mem_or_eq_of_mem_set hmem with hmem | rfl
    · exact h lane' hmem hrun e he
    · exact absurd he (hp _)
  rcases p with (reading | result) | _
  · exact waked nofun
  · refine ⟨fun _ => .rfl, fun _ _ _ h => h, fun h lane' hmem hrun e he => ?_⟩
    show ∃ run, (s.runs.modify lane.run _)[i]? = some run ∧ _
    rw [List.getElem?_modify]
    rcases List.mem_or_eq_of_mem_set hmem with hmem | rfl
    · obtain ⟨run, hget, hended⟩ := h lane' hmem hrun e he
      rw [hget]
      refine ⟨_, rfl, ?_⟩
      split
      · exact List.mem_append_left _ hended
      · exact hended
    · obtain rfl : lane.run = i := hrun
      cases he
      rw [List.getElem?_eq_getElem hruns]
      exact ⟨_, rfl, by simp⟩
  · exact waked nofun

theorem spares_runLane (hgood : Good none s) (j : Nat)
    (w : (r : Handler.Request) → Requests.Answer r) (i : Nat) : Spares s (s.runLane j w) i := by
  unfold System.runLane
  split
  · exact .refl s i
  · rename_i lane hget
    split
    · exact .refl s i
    · rename_i r next hrest
      have hspares := spares_answerLane s j w r i
      have hruns : lane.run < (s.answerLane j w r).2.runs.length := by
        rw [(beside_answerLane s j w r).runs]
        exact hgood.runs lane (List.mem_of_getElem? hget)
      generalize s.answerLane j w r = p at hspares hruns
      obtain ⟨a | a, s'⟩ := p
      · exact hspares.trans (spares_of_similar rfl rfl rfl fun _ => rfl)
      · exact hspares.trans (spares_goOn hruns j _ i)

/-- A lane that starts has not failed. -/
theorem spares_spawn (s : System) (number : Nat) (consumer : Consumer) (stops : List TokenId)
    (k : Nat) : Spares s (s.spawn (.fresh number consumer stops)) k := by
  refine ⟨fun _ => .rfl, fun _ _ _ h => h, fun h lane hmem hrun e he => ?_⟩
  rcases List.mem_append.mp hmem with hmem | hmem
  · exact h lane hmem hrun e he
  · rw [List.mem_singleton.mp hmem] at he
    cases he

/-- What a run is answered spares another one. It spares the run itself too, unless it makes or cancels
the token of its lanes. -/
theorem spares_answerRun (hgood : Good none s) (run : Run) (r : Request) (k : Nat)
    (hchild : ∀ parent, r = .childToken parent → i ≠ k)
    (hcancel : ∀ token, r = .cancelToken token → s.stopper token ≠ some k) :
    Spares s (s.answerRun i run r).2 k := by
  cases r with
  | session r => exact spares_of_similar rfl rfl rfl fun _ => rfl
  | childToken parent =>
    obtain ⟨hnew, -⟩ := Tokens.addChild_fst s.tokens parent
    refine spares_of_same rfl rfl (fun token => ?_) fun _ _ _ h => h.addChild parent
    show Function.update s.stopper (s.tokens.addChild parent).1 (some i) token = some k ↔ _
    by_cases htoken : token = (s.tokens.addChild parent).1
    · -- the new token is that of another run, and was nobody's before
      subst htoken
      rw [Function.update_self]
      refine iff_of_false (fun heq => hchild parent rfl (Option.some.inj heq)) fun hmine => ?_
      exact absurd (hgood.stoppers _ _ hmine) (hnew ▸ Nat.lt_irrefl _)
    · rw [Function.update_of_ne htoken]
  | cancelToken token =>
    refine spares_of_same rfl rfl (fun _ => .rfl) fun parent other hmine h => ?_
    have hne : other ≠ token := fun heq => hcancel token rfl (heq ▸ hmine)
    exact (h.cancel hgood.proper hne).of_grown fun _ token hget => ⟨token, hget, rfl, rfl⟩
  | dropToken token =>
    exact spares_of_same rfl rfl (fun _ => .rfl) fun _ _ _ h => h.dropChild token
  | spawnLane number consumer stops => exact spares_spawn s number consumer stops k
  | _ => exact .refl s k

/-- A run that is set still has the errors to look at that it had. -/
theorem spares_setRun (hget : s.runs[i]? = some run)
    (hended : i = k → ∀ e : ConsumeError, .error e ∈ run.ended → .error e ∈ run'.ended) :
    Spares s (s.setRun i run') k := by
  refine ⟨fun _ => .rfl, fun _ _ _ h => h, fun h lane hmem hrun e he => ?_⟩
  obtain ⟨found, hfound, herror⟩ := h lane hmem hrun e he
  show ∃ run, (s.runs.set i run')[k]? = some run ∧ _
  by_cases hk : i = k
  · subst hk
    obtain rfl := Option.some.inj (hget.symm.trans hfound)
    exact ⟨run', List.getElem?_set_self (List.getElem?_eq_some_iff.mp hget).1, hended rfl e herror⟩
  · exact ⟨found, (List.getElem?_set_ne hk).trans hfound, herror⟩

end Courier.Serving
