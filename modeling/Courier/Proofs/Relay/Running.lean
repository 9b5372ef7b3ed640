import Courier.Proofs.Relay.Transactions
import Mathlib.Data.List.Infix

/-!
# A running relay

A relay from its start to its end, whatever storage, publisher and hook it has. It is cancelled at
any moment: before it starts, while it waits for a tick, or while a request of a cycle is on its
way. It goes on by one request at a time, and a request that is never answered leaves it where it
is. At a tick it looks for the word to stop first; if there is none the tick comes when it likes.

* `Loop.Reached`: the turns that a relay has done make up its dialogue, and the turn that it is in
  has come as far as the rest of it (`reached_after`);
* `Cycle.Whole`: what is said of a cycle that is over, wherever in it the relay was cancelled;
* `Loop.Ran`: the dialogue of the relay, and what it has to do with the moment of the cancellation;
* `loop_ran`: every run of a relay is such.
-/

namespace Courier.Relay

theorem nonempty_answer (r : Request) : Nonempty (Requests.Answer r) := by
  cases r <;> first | exact ⟨()⟩ | exact ⟨none⟩ | exact ⟨.error ""⟩

/-- Whatever is left to do can be done. -/
theorem exists_told {α : Type} (p : Action α) : ∃ events result, p.Told events result := by
  induction p with
  | done a => exact ⟨[], a, rfl, rfl⟩
  | ask r next ih =>
    obtain ⟨answer⟩ := nonempty_answer r
    obtain ⟨events, result, h⟩ := ih answer
    exact ⟨⟨r, answer⟩ :: events, result, answer, events, rfl, h⟩

/-! ## The loop -/

/-- Something that happens to a running relay. -/
inductive Moment where
  | told (event : Program.Event Request)
  | cancelled

def Moment.event? : Moment → Option (Program.Event Request)
  | .told event => some event
  | .cancelled => none

/-- A running relay. -/
structure Loop where
  config : RelayConfig
  /-- What is left of its turn. -/
  rest : Action (Option Nat)
  cancelled : Bool := false
  /-- All that has happened to it. -/
  log : List Moment := []

namespace Loop

inductive Event where
  | cancel
  /-- The relay goes on, at a time, and this is the answer unless it waits for a tick. -/
  | go (now : Nat) (answer : (r : Request) → Requests.Answer r)

def Event.IsGo : Event → Prop
  | .cancel => False
  | .go .. => True

/-- A relay that starts at a time. -/
def start (config : RelayConfig) (now : Nat) : Loop where
  config
  rest := (tell .startup).bind fun _ => turn config now

/-- The answer to a request. -/
def reply (cancelled : Bool) (now : Nat) (answer : (r : Request) → Requests.Answer r) :
    (r : Request) → Requests.Answer r
  | .tick _ => if cancelled then none else some now
  | r => answer r

/-- A relay that has done its turn takes the next one, unless it has ended. -/
def onward (config : RelayConfig) : Action (Option Nat) → Action (Option Nat)
  | .done (some due) => turn config due
  | p => p

/-- The relay goes on with an answer. -/
def hear (l : Loop) (r : Request) (next : Requests.Answer r → Action (Option Nat))
    (a : Requests.Answer r) : Loop :=
  { l with rest := onward l.config (next a), log := l.log ++ [.told ⟨r, a⟩] }

def step (l : Loop) : Event → Loop
  | .cancel => { l with cancelled := true, log := l.log ++ [.cancelled] }
  | .go now answer =>
    match l.rest with
    | .done _ => l
    | .ask r next => l.hear r next (reply l.cancelled now answer r)

/-- Any interleaving of events. -/
def after (l : Loop) (events : List Event) : Loop :=
  events.foldl step l

/-- Events without end. -/
abbrev Future := Nat → Event

/-- The relay gets its answers, again and again. -/
def Future.Fair (more : Future) : Prop :=
  ∀ i, ∃ j, i ≤ j ∧ (more j).IsGo

/-- The relay after the first events of a future. -/
def first (l : Loop) (more : Future) (n : Nat) : Loop :=
  l.after ((List.range n).map more)

/-- The relay has returned. -/
def Ended (l : Loop) : Prop :=
  l.rest = .done none

/-- What it has asked and was told. -/
def dialogue (l : Loop) : List (Program.Event Request) :=
  l.log.filterMap Moment.event?

end Loop

/-! ## What is said of a run -/

/-- The hook is told something. -/
def heard (event : Hook) : Program.Event Request :=
  ⟨.hook event, ()⟩

def Request.hook? : Request → Option Hook
  | .hook event => some event
  | _ => none

/-- Is it a cycle that tells this, and not the relay around it? -/
def Hook.ofCycle : Hook → Bool
  | .startup | .shutdown | .pollError _ => false
  | _ => true

/-- What the hook is told. -/
def hooks (events : List (Program.Event Request)) : List Hook :=
  events.filterMap (·.request.hook?)

/-- A cycle of a running relay: when its tick was due and came, what it asked and was told, and what
it answered. -/
structure Cycle where
  due : Nat
  came : Nat
  events : List (Program.Event Request)
  result : Except RelayError Nat

namespace Cycle

/-- The hook is told that the cycle has failed, if it has. -/
def report (c : Cycle) : List Hook :=
  match c.result with
  | .ok _ => []
  | .error e => [.pollError e]

/-- The dialogue of the relay from the tick of a cycle to the next one. -/
def dialogue (c : Cycle) : List (Program.Event Request) :=
  ⟨.tick c.due, some c.came⟩ :: (c.events ++ c.report.map heard)

/-- A cycle from its beginning to its end. -/
structure Whole (batchSize : Nat) (c : Cycle) : Prop where
  told : (poll batchSize).Told c.events c.result
  /-- A transaction that was begun is ended once, by the last request to the storage. -/
  ended : ∀ tx, ⟨.begin, .ok tx⟩ ∈ c.events → ∃ before last,
    storageCalls c.events = before ++ [last] ∧ last.request.ended? = some tx ∧
      ∀ event ∈ before, event.request.ended? = none
  /-- What the hook is told meanwhile is of this kind. -/
  quiet : ∀ hook ∈ hooks c.events, hook.ofCycle

end Cycle

/-- The dialogue of a relay that has done these cycles and ends while it waits for the next one. -/
def wholeDialogue (cycles : List Cycle) (due : Nat) : List (Program.Event Request) :=
  heard .startup :: (cycles.flatMap Cycle.dialogue ++ [⟨.tick due, none⟩, heard .shutdown])

namespace Loop

/-- How a relay with batches of this size runs. -/
structure Ran (batchSize : Nat) (l : Loop) : Prop where
  /-- So far it has done cycles one after another, and maybe a part of one. -/
  course : ∃ cycles due, (∀ c ∈ cycles, c.Whole batchSize) ∧
    l.dialogue <+: wholeDialogue cycles due
  /-- When it has ended then all of its cycles are whole. -/
  whole : l.Ended → ∃ cycles due, (∀ c ∈ cycles, c.Whole batchSize) ∧
    l.dialogue = wholeDialogue cycles due ∧
    hooks l.dialogue =
      .startup :: (cycles.flatMap (fun c => hooks c.events ++ c.report) ++ [.shutdown]) ∧
    (hooks l.dialogue).count .startup = 1 ∧ (hooks l.dialogue).count .shutdown = 1
  /-- It is told to stop, and ends, only when it was cancelled before. -/
  stopped : ∀ before due after, l.log = before ++ .told ⟨.tick due, none⟩ :: after →
    .cancelled ∈ before
  cancelled_of_ended : l.Ended → .cancelled ∈ l.log
  /-- Once it was cancelled no tick comes any more, and so no cycle begins. -/
  unticked : ∀ before after, l.log = before ++ .cancelled :: after →
    ∀ due came, .told ⟨.tick due, some came⟩ ∉ after
  /-- Once it was cancelled it ends, as long as it gets its answers. -/
  ends : .cancelled ∈ l.log → ∀ more : Future, more.Fair → ∃ n, (l.first more n).Ended

end Loop

/-! ## Turns -/

section Turns

variable {config : RelayConfig} {batchSize tx due now : Nat} {rows taken : List OutboxEntry}
  {events : List (Program.Event Request)} {result : Except RelayError Nat}

@[simp] theorem hooks_append (first second : List (Program.Event Request)) :
    hooks (first ++ second) = hooks first ++ hooks second :=
  List.filterMap_append ..

@[simp] theorem hooks_heard (told : List Hook) : hooks (told.map heard) = told := by
  simp [hooks, List.filterMap_map, Function.comp_def, heard, Request.hook?]

theorem Handed.quiet (h : Handed rows events taken) : ∀ hook ∈ hooks events, hook.ofCycle := by
  induction h with
  | done => simp [hooks]
  | stop entry rest cause => simp [hooks, Request.hook?, Hook.ofCycle]
  | next h ih => simpa [hooks, Request.hook?, Hook.ofCycle] using ih

theorem Opened.quiet (h : Opened batchSize tx events rows taken) :
    ∀ hook ∈ hooks events, hook.ofCycle := by
  cases h with
  | nothing => simp [hooks, Request.hook?]
  | rows h => simpa [hooks, Request.hook?, Hook.ofCycle] using h.quiet

theorem Closed.quiet_hooks (h : Closed tx taken events result) :
    ∀ hook ∈ hooks events, hook.ofCycle := by
  cases h <;> simp [hooks, Request.hook?, Hook.ofCycle]

theorem Cycled.quiet (h : Cycled batchSize events result) : ∀ hook ∈ hooks events, hook.ofCycle := by
  cases h with
  | unbegun cause => simp [hooks, Request.hook?]
  | unfetched tx cause reply => simp [hooks, Request.hook?]
  | @opened tx opening closing _ _ _ h hclose =>
    change ∀ hook ∈ hooks (opening ++ closing), hook.ofCycle
    rw [hooks_append]
    exact List.forall_mem_append.mpr ⟨h.quiet, hclose.quiet_hooks⟩

theorem Cycle.whole_of_told {c : Cycle} (h : (poll batchSize).Told c.events c.result) :
    c.Whole batchSize where
  told := h
  ended _ := (Cycled.of_told h).ended
  quiet := (Cycled.of_told h).quiet

/-- A turn ends the relay, or is a cycle that is whole. -/
theorem told_turn {next : Option Nat} (h : (turn config due).Told events next) :
    next = none ∧ events = [⟨.tick due, none⟩, heard .shutdown] ∨
      ∃ c : Cycle, c.Whole config.batchSize ∧ events = c.dialogue ∧
        next = some (nextTick config.pollInterval.millis due c.came) := by
  simp only [turn, tick, tell, Program.request, Program.bind_eq, Program.ask_bind,
    Program.done_bind] at h
  obtain ⟨ticked, _, rfl, h⟩ := h
  cases ticked with
  | none =>
    obtain ⟨⟨⟩, _, rfl, rfl, rfl⟩ := h
    exact .inl ⟨rfl, rfl⟩
  | some came =>
    obtain ⟨polled, cycle, _, rfl, hcycle, h⟩ := Program.told_bind.mp h
    refine .inr ⟨⟨due, came, cycle, polled⟩, Cycle.whole_of_told hcycle, ?_⟩
    cases polled with
    | ok count =>
      obtain ⟨rfl, rfl⟩ := h
      exact ⟨rfl, rfl⟩
    | error e =>
      obtain ⟨⟨⟩, _, rfl, rfl, rfl⟩ := h
      exact ⟨rfl, rfl⟩

end Turns

/-! ## How far a relay has come -/

namespace Loop

variable {config : RelayConfig} {now : Nat} {l : Loop} {done events : List (Program.Event Request)}
  {p : Action (Option Nat)}

/-- What a relay has done, turn by turn, and what it does next. -/
inductive Turned (config : RelayConfig) (now : Nat) :
    List (Program.Event Request) → Action (Option Nat) → Prop where
  | start : Turned config now [] ((tell .startup).bind fun _ => turn config now)
  | next {done events : List (Program.Event Request)} {p : Action (Option Nat)} {due : Nat}
      (h : Turned config now done p) (hturn : p.Told events (some due)) :
      Turned config now (done ++ events) (turn config due)

/-- The turns that are over have been cycles. -/
theorem Turned.cycles (h : Turned config now done p) :
    (done = [] ∧ p = (tell .startup).bind fun _ => turn config now) ∨
      ∃ (cycles : List Cycle) (due : Nat), (∀ c ∈ cycles, c.Whole config.batchSize) ∧
        done = heard .startup :: cycles.flatMap Cycle.dialogue ∧ p = turn config due := by
  induction h with
  | start => exact .inl ⟨rfl, rfl⟩
  | @next done events p due' h hturn ih =>
    obtain ⟨rfl, rfl⟩ | ⟨cycles, due, hwhole, rfl, rfl⟩ := ih
    · obtain ⟨⟨⟩, events, rfl, hturn⟩ := hturn
      obtain ⟨⟨⟩, -⟩ | ⟨c, hc, rfl, -⟩ := told_turn hturn
      exact .inr ⟨[c], due', by simpa using hc, by simp [heard], rfl⟩
    · obtain ⟨⟨⟩, -⟩ | ⟨c, hc, rfl, -⟩ := told_turn hturn
      refine .inr ⟨cycles ++ [c], due', ?_, by simp, rfl⟩
      exact List.forall_mem_append.mpr ⟨hwhole, by simpa using hc⟩

/-- When the last turn is over then the dialogue is that of a whole run. -/
theorem Turned.whole (h : Turned config now done p) (hlast : p.Told events none) :
    ∃ cycles due, (∀ c ∈ cycles, c.Whole config.batchSize) ∧
      done ++ events = wholeDialogue cycles due := by
  obtain ⟨rfl, rfl⟩ | ⟨cycles, due, hwhole, rfl, rfl⟩ := h.cycles
  · obtain ⟨⟨⟩, events, rfl, hlast⟩ := hlast
    obtain ⟨-, rfl⟩ | ⟨c, -, -, ⟨⟩⟩ := told_turn hlast
    exact ⟨[], now, by simp, rfl⟩
  · obtain ⟨-, rfl⟩ | ⟨c, -, -, ⟨⟩⟩ := told_turn hlast
    exact ⟨cycles, due, hwhole, by simp [wholeDialogue]⟩

/-- Whatever a turn has come to, it may end the relay. -/
theorem Turned.exists_whole (h : Turned config now done p) {result : Option Nat}
    (hturn : p.Told events result) :
    ∃ cycles due, (∀ c ∈ cycles, c.Whole config.batchSize) ∧
      done ++ events <+: wholeDialogue cycles due := by
  cases result with
  | none =>
    obtain ⟨cycles, due, hwhole, heq⟩ := h.whole hturn
    exact ⟨cycles, due, hwhole, heq ▸ List.prefix_rfl⟩
  | some due' =>
    have hlast : (turn config due').Told [⟨.tick due', none⟩, heard .shutdown] none :=
      ⟨none, _, rfl, (), [], rfl, rfl, rfl⟩
    obtain ⟨cycles, due, hwhole, heq⟩ := (h.next hturn).whole hlast
    exact ⟨cycles, due, hwhole, heq ▸ List.prefix_append ..⟩

/-- A relay stands in a turn, behind those that it has done. -/
structure Reached (config : RelayConfig) (now : Nat) (l : Loop) : Prop where
  config_eq : l.config = config
  turned : ∃ done p events, Turned config now done p ∧ l.dialogue = done ++ events ∧
    ∀ more result, l.rest.Told more result → p.Told (events ++ more) result
  /-- It goes on to its next turn at once. -/
  unfinished : ∀ due, l.rest ≠ .done (some due)

theorem reached_start (config : RelayConfig) (now : Nat) :
    Reached config now (start config now) where
  config_eq := rfl
  turned := ⟨[], _, [], .start, rfl, fun _ _ h => h⟩
  unfinished _ := nofun

@[simp] theorem dialogue_cancel (l : Loop) : (l.step .cancel).dialogue = l.dialogue := by
  simp [step, dialogue, Moment.event?]

@[simp] theorem dialogue_hear (r : Request) (next : Requests.Answer r → Action (Option Nat))
    (a : Requests.Answer r) : (l.hear r next a).dialogue = l.dialogue ++ [⟨r, a⟩] := by
  simp [hear, dialogue, Moment.event?]

theorem Reached.hear (h : Reached config now l) {r : Request}
    {next : Requests.Answer r → Action (Option Nat)} (hrest : l.rest = .ask r next)
    (a : Requests.Answer r) : Reached config now (l.hear r next a) := by
  obtain ⟨rfl, ⟨done, p, events, hturned, hdialogue, hturn⟩, -⟩ := h
  -- What comes after the answer is all that is left of the turn.
  have hleft : ∀ more result, (next a).Told more result →
      p.Told (events ++ [⟨r, a⟩] ++ more) result := fun more result hmore => by
    rw [List.append_assoc]
    exact hturn _ _ (hrest ▸ ⟨a, more, rfl, hmore⟩)
  have hcame : (l.hear r next a).dialogue = done ++ (events ++ [⟨r, a⟩]) := by
    rw [dialogue_hear, hdialogue, List.append_assoc]
  match hnext : next a with
  | .done (some due) =>
    have hover : p.Told (events ++ [⟨r, a⟩]) (some due) := by
      simpa using hleft [] _ (hnext ▸ ⟨rfl, rfl⟩)
    refine ⟨rfl, ⟨_, _, [], hturned.next hover, ?_, ?_⟩, ?_⟩
    · rw [hcame, List.append_nil]
    · simp [Loop.hear, hnext, onward]
    · simp only [Loop.hear, hnext, onward]
      exact fun _ => nofun
  | .done none =>
    refine ⟨rfl, ⟨done, p, _, hturned, hcame, ?_⟩, ?_⟩
    · simpa only [Loop.hear, hnext, onward] using hnext ▸ hleft
    · simp [Loop.hear, hnext, onward]
  | .ask r' next' =>
    refine ⟨rfl, ⟨done, p, _, hturned, hcame, ?_⟩, ?_⟩
    · simpa only [Loop.hear, hnext, onward] using hnext ▸ hleft
    · simp [Loop.hear, hnext, onward]

theorem Reached.step (h : Reached config now l) (event : Event) :
    Reached config now (l.step event) := by
  match event with
  | .cancel => exact ⟨h.config_eq, by rw [dialogue_cancel]; exact h.turned, h.unfinished⟩
  | .go clock answer =>
    cases hrest : l.rest with
    | done a => simpa only [Loop.step, hrest] using h
    | ask r next => simpa only [Loop.step, hrest] using h.hear hrest _

theorem Reached.after (h : Reached config now l) (events : List Event) :
    Reached config now (l.after events) := by
  induction events generalizing l with
  | nil => exact h
  | cons event rest ih => exact ih (h.step event)

theorem reached_after (config : RelayConfig) (now : Nat) (events : List Event) :
    Reached config now ((start config now).after events) :=
  (reached_start config now).after events

theorem Reached.course (h : Reached config now l) :
    ∃ cycles due, (∀ c ∈ cycles, c.Whole config.batchSize) ∧
      l.dialogue <+: wholeDialogue cycles due := by
  obtain ⟨done, p, events, hturned, hdialogue, hturn⟩ := h.turned
  obtain ⟨more, result, hmore⟩ := exists_told l.rest
  obtain ⟨cycles, due, hwhole, hprefix⟩ := hturned.exists_whole (hturn more result hmore)
  refine ⟨cycles, due, hwhole, .trans ⟨more, ?_⟩ hprefix⟩
  rw [hdialogue, List.append_assoc]

theorem Reached.whole (h : Reached config now l) (hended : l.Ended) :
    ∃ cycles due, (∀ c ∈ cycles, c.Whole config.batchSize) ∧
      l.dialogue = wholeDialogue cycles due := by
  obtain ⟨done, p, events, hturned, hdialogue, hturn⟩ := h.turned
  have hlast : p.Told events none := by simpa using hturn [] none (hended ▸ ⟨rfl, rfl⟩)
  exact hdialogue ▸ hturned.whole hlast

/-! ## The word to stop -/

/-- Something is at a place of a longer list: at its end, or where it was before. -/
theorem cons_of_concat {α : Type} {items before after : List α} {last x : α}
    (h : items ++ [last] = before ++ x :: after) :
    (before = items ∧ x = last ∧ after = []) ∨
      ∃ after', after = after' ++ [last] ∧ items = before ++ x :: after' := by
  rcases List.eq_nil_or_concat after with rfl | ⟨after', last', rfl⟩
  · obtain ⟨rfl, hx⟩ := List.append_inj' h rfl
    exact .inl ⟨rfl, (List.singleton_inj.mp hx).symm, rfl⟩
  · rw [List.concat_eq_append, ← List.cons_append, ← List.append_assoc] at h
    obtain ⟨rfl, hlast⟩ := List.append_inj' h rfl
    obtain rfl := List.singleton_inj.mp hlast
    exact .inr ⟨after', List.concat_eq_append, rfl⟩

/-- A relay minds the word to stop at its ticks. -/
structure Minds (l : Loop) : Prop where
  cancelled_iff : l.cancelled = true ↔ .cancelled ∈ l.log
  stopped : ∀ before due after, l.log = before ++ .told ⟨.tick due, none⟩ :: after →
    .cancelled ∈ before
  unticked : ∀ before after, l.log = before ++ .cancelled :: after →
    ∀ due came, .told ⟨.tick due, some came⟩ ∉ after

theorem minds_start (config : RelayConfig) (now : Nat) : Minds (start config now) where
  cancelled_iff := by simp [start]
  stopped := by simp [start]
  unticked := by simp [start]

theorem Minds.cancel (h : Minds l) : Minds (l.step .cancel) where
  cancelled_iff := by simp [Loop.step]
  stopped before due after heq := by
    obtain ⟨-, ⟨⟩, -⟩ | ⟨after', -, hlog⟩ := cons_of_concat heq
    exact h.stopped before due after' hlog
  unticked before after heq due came := by
    obtain ⟨-, -, rfl⟩ | ⟨after', rfl, hlog⟩ := cons_of_concat heq
    · exact List.not_mem_nil
    · simpa using h.unticked before after' hlog due came

/-- Only a relay that was cancelled is told so. -/
theorem cancelled_of_reply {cancelled : Bool} {clock due : Nat} {r : Request}
    {answer : (r : Request) → Requests.Answer r}
    (h : (⟨.tick due, none⟩ : Program.Event Request) = ⟨r, reply cancelled clock answer r⟩) :
    cancelled = true := by
  cases r with
  | tick due' => exact (by simpa [reply] using h : due = due' ∧ cancelled = true).2
  | _ => simp at h

/-- A tick comes only to a relay that was not cancelled. -/
theorem not_cancelled_of_reply {cancelled : Bool} {clock due came : Nat} {r : Request}
    {answer : (r : Request) → Requests.Answer r}
    (h : (⟨.tick due, some came⟩ : Program.Event Request) = ⟨r, reply cancelled clock answer r⟩) :
    cancelled = false := by
  cases r with
  | tick due' =>
    cases cancelled with
    | false => rfl
    | true => simp [reply] at h
  | _ => simp at h

theorem Minds.hear (h : Minds l) (r : Request) (next : Requests.Answer r → Action (Option Nat))
    (clock : Nat) (answer : (r : Request) → Requests.Answer r) :
    Minds (l.hear r next (reply l.cancelled clock answer r)) where
  cancelled_iff := by simpa [Loop.hear] using h.cancelled_iff
  stopped before due after heq := by
    obtain ⟨rfl, hlast, -⟩ | ⟨after', -, hlog⟩ := cons_of_concat heq
    · exact h.cancelled_iff.mp (cancelled_of_reply (Moment.told.inj hlast))
    · exact h.stopped before due after' hlog
  unticked before after heq due came := by
    obtain ⟨-, ⟨⟩, -⟩ | ⟨after', rfl, hlog⟩ := cons_of_concat heq
    refine List.not_mem_append (h.unticked before after' hlog due came) fun hmem => ?_
    have htrue := h.cancelled_iff.mpr (hlog ▸ List.mem_append_right _ List.mem_cons_self)
    have hfalse := not_cancelled_of_reply (Moment.told.inj (List.mem_singleton.mp hmem))
    exact Bool.false_ne_true (hfalse.symm.trans htrue)

theorem Minds.step (h : Minds l) (event : Event) : Minds (l.step event) := by
  match event with
  | .cancel => exact h.cancel
  | .go clock answer =>
    cases hrest : l.rest with
    | done a => simpa only [Loop.step, hrest] using h
    | ask r next => simpa only [Loop.step, hrest] using h.hear r next clock answer

theorem minds_after (config : RelayConfig) (now : Nat) (events : List Event) :
    Minds ((start config now).after events) := by
  suffices ∀ l, Minds l → Minds (l.after events) from this _ (minds_start config now)
  induction events with
  | nil => exact fun l h => h
  | cons event rest ih => exact fun l h => ih _ (h.step event)

/-- A relay that has ended was told to stop. -/
theorem Minds.cancelled_of_ended (h : Minds l) (hreached : Reached config now l) (hended : l.Ended) :
    .cancelled ∈ l.log := by
  obtain ⟨cycles, due, -, hdialogue⟩ := hreached.whole hended
  have hmem : ⟨.tick due, none⟩ ∈ l.dialogue := by simp [hdialogue, wholeDialogue]
  obtain ⟨moment, hmoment, heq⟩ := List.mem_filterMap.mp hmem
  cases moment with
  | cancelled => cases heq
  | told event =>
    obtain rfl := Option.some.inj heq
    obtain ⟨before, after, hlog⟩ := List.append_of_mem hmoment
    rw [hlog]
    exact List.mem_append_left _ (h.stopped before due after hlog)

/-! ## The end -/

theorem Future.Fair.drop {more : Future} (h : more.Fair) (n : Nat) :
    Future.Fair fun i => more (n + i) := fun i => by
  obtain ⟨j, hj, hgo⟩ := h (n + i)
  obtain ⟨k, rfl⟩ := Nat.exists_eq_add_of_le (Nat.le_of_add_right_le hj)
  exact ⟨k, Nat.le_of_add_le_add_left hj, hgo⟩

theorem first_add (l : Loop) (more : Future) (n m : Nat) :
    l.first more (n + m) = (l.first more n).first (fun i => more (n + i)) m := by
  simp only [first, after, List.range_add, List.map_append, List.foldl_append, List.map_map]
  rfl

/-- What a cancelled relay gets as its next answer. -/
theorem exists_hear {r : Request} {next : Requests.Answer r → Action (Option Nat)} {more : Future}
    (h : more.Fair) (hcancelled : l.cancelled = true) (hrest : l.rest = .ask r next) :
    ∃ n clock answer, (l.first more n).cancelled = true ∧
      (l.first more n).rest = onward l.config (next (reply true clock answer r)) := by
  obtain ⟨j, -, hgo⟩ := h 0
  induction j generalizing l more with
  | zero =>
    match hmore : more 0, hgo with
    | .go clock answer, _ =>
      exact ⟨1, clock, answer, by simp [first, after, hmore, step, hrest, hcancelled, hear]⟩
  | succ j ih =>
    match hmore : more 0 with
    | .go clock answer =>
      exact ⟨1, clock, answer, by simp [first, after, hmore, step, hrest, hcancelled, hear]⟩
    | .cancel =>
      have hone : l.first more 1 = l.step .cancel := by simp [first, after, hmore]
      obtain ⟨n, clock, answer, hn⟩ :=
        ih (l := l.step .cancel) (h.drop 1) rfl hrest (by rwa [Nat.add_comm])
      exact ⟨1 + n, clock, answer, by rwa [first_add, hone]⟩

theorem exists_ended_of_first {more : Future} {n : Nat}
    (h : ∃ m, ((l.first more n).first (fun i => more (n + i)) m).Ended) :
    ∃ n, (l.first more n).Ended := by
  obtain ⟨m, h⟩ := h
  exact ⟨n + m, by rwa [first_add]⟩

/-- A cancelled relay ends at its next tick, if it has not ended yet. -/
theorem exists_ended {more : Future} (h : more.Fair) (hcancelled : l.cancelled = true)
    (p : Action (Option Nat)) (hrest : l.rest = onward config p) : ∃ n, (l.first more n).Ended := by
  induction p generalizing config l more with
  | done a =>
    cases a with
    | none => exact ⟨0, hrest⟩
    | some due =>
      obtain ⟨n, clock, answer, hcancelled', hrest'⟩ := exists_hear h hcancelled hrest
      refine exists_ended_of_first (n := n) ?_
      obtain ⟨m, clock, answer, -, hrest''⟩ := exists_hear (h.drop n) hcancelled' hrest'
      exact ⟨m, hrest''⟩
  | ask r next ih =>
    obtain ⟨n, clock, answer, hcancelled', hrest'⟩ := exists_hear h hcancelled hrest
    refine exists_ended_of_first (n := n) ?_
    exact ih (reply true clock answer r) (h.drop n) hcancelled' hrest'

theorem Reached.onward_eq (h : Reached config now l) : onward config l.rest = l.rest := by
  cases hrest : l.rest with
  | ask r next => rfl
  | done a =>
    cases a with
    | none => rfl
    | some due => exact absurd hrest (h.unfinished due)

/-- When a relay has ended then its hook was told of its cycles, of the start before them and of the
end behind them. -/
theorem hooks_wholeDialogue (cycles : List Cycle) (due : Nat) :
    hooks (wholeDialogue cycles due) =
      .startup :: (cycles.flatMap (fun c => hooks c.events ++ c.report) ++ [.shutdown]) := by
  have hcycles : hooks (cycles.flatMap Cycle.dialogue) =
      cycles.flatMap fun c => hooks c.events ++ c.report := by
    induction cycles with
    | nil => rfl
    | cons c rest ih =>
      have hcycle : hooks c.dialogue = hooks c.events ++ c.report := by
        change hooks (c.events ++ c.report.map heard) = _
        rw [hooks_append, hooks_heard]
      rw [List.flatMap_cons, List.flatMap_cons, hooks_append, hcycle, ih]
  change .startup :: hooks (cycles.flatMap Cycle.dialogue ++ _) = _
  rw [hooks_append, hcycles]
  rfl

/-- The cycles tell the hook nothing of the start and of the end of the relay. -/
theorem ofCycle_or_pollError {cycles : List Cycle} {batchSize : Nat}
    (h : ∀ c ∈ cycles, c.Whole batchSize) {hook : Hook}
    (hmem : hook ∈ cycles.flatMap fun c => hooks c.events ++ c.report) :
    hook.ofCycle ∨ ∃ e, hook = .pollError e := by
  obtain ⟨c, hc, hmem⟩ := List.mem_flatMap.mp hmem
  rcases List.mem_append.mp hmem with hmem | hmem
  · exact .inl ((h c hc).quiet hook hmem)
  · unfold Cycle.report at hmem
    split at hmem
    · cases hmem
    · exact .inr ⟨_, List.mem_singleton.mp hmem⟩

theorem Reached.ran (h : Reached config now l) (hminds : Minds l) : Ran config.batchSize l where
  course := h.course
  whole hended := by
    obtain ⟨cycles, due, hwhole, hdialogue⟩ := h.whole hended
    have hstartup : .startup ∉ cycles.flatMap fun c => hooks c.events ++ c.report := fun hmem => by
      simpa [Hook.ofCycle] using ofCycle_or_pollError hwhole hmem
    have hshutdown : .shutdown ∉ cycles.flatMap fun c => hooks c.events ++ c.report := fun hmem => by
      simpa [Hook.ofCycle] using ofCycle_or_pollError hwhole hmem
    refine ⟨cycles, due, hwhole, hdialogue, ?_⟩
    rw [hdialogue, hooks_wholeDialogue]
    refine ⟨rfl, ?_, ?_⟩
    · simp [List.count_eq_zero_of_not_mem hstartup]
    · simp [List.count_eq_zero_of_not_mem hshutdown]
  stopped := hminds.stopped
  cancelled_of_ended := hminds.cancelled_of_ended h
  unticked := hminds.unticked
  ends hmem more hfair :=
    exists_ended hfair (hminds.cancelled_iff.mpr hmem) l.rest h.onward_eq.symm

end Loop

/-- Every run of a relay is such, with any settings, however it is answered and whenever it is
cancelled. -/
theorem loop_ran (config : RelayConfig) (now : Nat) (events : List Loop.Event) :
    Loop.Ran config.normalized.batchSize ((Loop.start config.normalized now).after events) :=
  (Loop.reached_after _ now events).ran (Loop.minds_after _ now events)

/-- Answers for a relay that finds one row each time, and has no failures. -/
def smoothly (row : OutboxEntry) : (r : Request) → Requests.Answer r
  | .begin => .ok 0
  | .fetch .. => .ok [row]
  | .send _ | .mark .. | .commit _ | .rollback _ => .ok ()
  | .hook _ => ()
  | .tick _ => none

/-- A relay that is cancelled while it sends the only row commits that row before it ends. -/
example (row : OutboxEntry) :
    let go := Loop.Event.go 0 (smoothly row)
    let l := (Loop.start {} 0).after
      ([go, go, go, go, go, .cancel] ++ List.replicate 7 go)
    l.Ended ∧ hooks l.dialogue =
      [.startup, .fetched 1, .published row.id, .committed 1, .shutdown] := by
  constructor <;> cbv

/-! ## The relay as a task -/

section Task

open Simulation

variable (relaying : Relaying)

/-- What becomes of the task of a relay after a turn. -/
def afterTurn : Option Nat → Routine ⊕ Ending
  | none => .inr .relay
  | some due => .inl (.relay relaying due)

theorem relayTurn_eq (due : Nat) :
    Routine.relayTurn relaying due =
      (Routine.relayed relaying (turn relaying.config due)).bind
        fun next => .done (afterTurn relaying next) := by
  change Program.bind _ _ = Program.bind _ _
  congr 1
  funext next
  cases next <;> rfl

/-- The first turn of the task is what a relay does from its start to its second tick. -/
theorem startRelay_eq (now : Nat) :
    Routine.startRelay relaying now =
      (Routine.relayed relaying (Loop.start relaying.config now).rest).bind
        fun next => .done (afterTurn relaying next) := by
  rw [Routine.startRelay, relayTurn_eq, Loop.start, Routine.relayed, Routine.relayed,
    Routine.relayed, Service.relaying, Service.relaying, Service.relaying, Program.interpret_bind,
    Program.bind_assoc]
  rfl

/-- A task that waits for a tick is told to stop just if its token is cancelled. -/
theorem relay_tick_eq_none (task : TaskId) (cancel : TokenId) (due : Nat) (w : World) :
    (w.relay task cancel (.tick due)).1 = .ready none ↔ w.tokens.isCancelled cancel := by
  rw [World.relay]
  split
  case isTrue h => exact iff_of_true rfl h
  case isFalse h =>
    refine iff_of_false (fun hready => ?_) h
    split at hready <;> cases hready

end Task

end Courier.Relay
