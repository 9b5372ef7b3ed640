import Courier.Consumer.Group
import Courier.Proofs.Amqp.Headers
import Courier.Proofs.Memory.Bindings
import Courier.Proofs.Memory.DeadLetters
import Courier.Proofs.Memory.Undisturbed

/-!
# Declaring again

What a consumer has declared once stands forever, so a consumer that declares it again on an open
channel succeeds, and no request of it changes the broker (`assured_declare`). A group opens a channel,
declares what its consumers need and closes the channel (`assured_groupDeclare`): that changes no
exchange, no queue with its messages, and no binding (`Alike`). Neither needs the broker for itself:
others may declare, publish and consume in the meantime.

`firm_after` puts this together with what holds of all exchanges, queues and bindings, whatever has
befallen the broker.
-/

namespace Courier

namespace Consumer

open Memory

variable {config : ConsumerConfig} {channel : ChannelId} {m m' : Memory}

theorem reflexive_queueArguments (config : ConsumerConfig) :
    sameArguments (queueArguments config) (queueArguments config) = true := by
  cases h : config.deadLetterExchange with
  | none =>
    rw [queueArguments, h]
    rfl
  | some exchange => exact sameArguments_queueArguments h

theorem reflexive_declarations
    (h : ∀ leaf ∈ Json.leavesOfMembers config.bindingArgs, leaf.Representable) :
    ∀ d ∈ declarations config, d.Reflexive := by
  have hdeadLetters : ∀ exchange, ∀ d ∈ [Declaration.exchange exchange .topic true,
      .queue { name := config.deadLetterQueue, durable := true },
      .binding ⟨config.deadLetterQueue, exchange, config.deadLetterKey, []⟩], d.Reflexive := by
    intro exchange d hd
    simp only [List.mem_cons, List.not_mem_nil, or_false] at hd
    obtain rfl | rfl | rfl := hd
    · trivial
    · rfl
    · rfl
  have hbinding : ∀ exchange, Declaration.Reflexive
      (.binding ⟨config.queue, exchange, config.routingKey, config.bindingArgs⟩) :=
    fun _ => Json.beqMembers_self config.bindingArgs h
  refine List.forall_mem_append.mpr ⟨List.forall_mem_append.mpr ⟨?_, ?_⟩, ?_⟩
  · cases config.deadLetterExchange with
    | none => exact List.forall_mem_nil _
    | some exchange => exact hdeadLetters exchange
  · exact List.forall_mem_singleton.mpr (reflexive_queueArguments config)
  · cases config.exchange with
    | none => exact List.forall_mem_nil _
    | some exchange => exact List.forall_mem_singleton.mpr (hbinding exchange)

end Consumer

namespace Memory

open Transport (Session)

variable {m m' m₁ m₂ m₃ : Memory} {s : Scene} {channel : ChannelId} {ds : List Declaration}

/-! ## A session that declares what stands -/

/-- The session has an open channel, and all of this has been declared. -/
structure Standing (ds : List Declaration) (channel : ChannelId) (s : Scene) : Prop where
  own : channel ∈ s.own
  there : s.memory.Has (.channel channel)
  unclosed : s.memory.isClosed channel = false
  stands : ∀ d ∈ ds, d.Stands s.memory

theorem stable_standing : Stable (Standing ds channel) := by
  intro s activity hspares h
  refine ⟨h.own, has_act h.there activity, ?_, fun d hd => d.lasting_stands _ _ (h.stands d hd)⟩
  exact (isClosed_act h.there activity).trans (by rw [h.unclosed, hspares channel h.own]; rfl)

theorem Standing.answered (h : Standing ds channel s) {d : Declaration} (hd : d ∈ ds) :
    s.memory.onOpen channel (d.operation s.memory) = (.ok (), s.memory) := by
  have hclosed := h.unclosed
  unfold isClosed at hclosed
  split at hclosed
  · rename_i c hc
    rw [onOpen, openChannel?, hc, Declaration.operation_of_stands (h.stands d hd)]
    simp [hclosed, unchangedOnError, bind, Except.bind]
  · cases hclosed

/-- It succeeded, and all of this still stands. -/
def Repeated {ε : Type} (ds : List Declaration) (channel : ChannelId) (result : Except ε Unit)
    (s : Scene) : Prop :=
  result = .ok () ∧ Standing ds channel s

theorem stable_repeated {ε : Type} (result : Except ε Unit) : Stable (Repeated ds channel result) :=
  fun s activity hspares h => ⟨h.1, stable_standing s activity hspares h.2⟩

theorem assured_request {d : Declaration} (hd : d ∈ ds) :
    Assured Eq (Standing ds channel) (d.request channel) (Repeated ds channel) := by
  have repeated : ∀ {s : Scene} {x : Except TransportError Unit × Memory}, Standing ds channel s →
      x = (.ok (), s.memory) → s.memory = x.2 ∧ Repeated ds channel x.1 ⟨s.own ++ [], x.2⟩ := by
    rintro s x hs rfl
    exact ⟨rfl, rfl, by rwa [List.append_nil]⟩
  cases d with
  | exchange name kind durable =>
    exact .request stable_standing stable_repeated fun s hs => repeated hs (hs.answered hd)
  | queue declaration =>
    exact .request stable_standing stable_repeated fun s hs => repeated hs (hs.answered hd)
  | binding b =>
    exact .request stable_standing stable_repeated fun s hs => repeated hs (hs.answered hd)

theorem assured_untilError {list : List Declaration} (hlist : ∀ d ∈ list, d ∈ ds) :
    Assured Eq (Standing ds channel)
      (Consumer.untilError (list.map (·.request channel))) (Repeated ds channel) := by
  induction list with
  | nil => exact .done stable_standing fun s hs => ⟨rfl, hs⟩
  | cons d list ih =>
    obtain ⟨hd, hrest⟩ := List.forall_mem_cons.mp hlist
    refine (assured_request hd).bind fun result s seen a s' hs h => ?_
    obtain ⟨rfl, hs⟩ := hs
    exact ih hrest hs h

theorem assured_declare {config : ConsumerConfig} (hds : ∀ d ∈ Consumer.declarations config, d ∈ ds) :
    Assured Eq (Standing ds channel) (Consumer.declare config channel) (Repeated ds channel) := by
  rw [Consumer.declare_eq]
  refine (assured_untilError hds).bind fun result s seen a s' hs h => ?_
  obtain ⟨rfl, hs⟩ := hs
  exact Assured.done stable_standing (fun s hs => ⟨rfl, hs⟩) hs h

theorem assured_declareEach {consumers : List Consumer}
    (hds : ∀ consumer ∈ consumers, ∀ d ∈ Consumer.declarations consumer.config, d ∈ ds) :
    Assured Eq (Standing ds channel) (Group.declareEach channel consumers) (Repeated ds channel) := by
  induction consumers with
  | nil => exact .done stable_standing fun s hs => ⟨rfl, hs⟩
  | cons consumer rest ih =>
    obtain ⟨hconsumer, hrest⟩ := List.forall_mem_cons.mp hds
    refine (assured_declare hconsumer).bind fun result s seen a s' hs h => ?_
    obtain ⟨rfl, hs⟩ := hs
    exact ih hrest hs h

/-! ## A group -/

/-- The exchanges are the same, and so are the bindings, and the queues with their messages. -/
structure Alike (m m' : Memory) : Prop where
  exchanges : m'.exchanges = m.exchanges
  bindings : m'.bindings = m.bindings
  declarations : m'.declarations = m.declarations
  ready : ∀ queue, m'.ready queue = m.ready queue

theorem Alike.refl (m : Memory) : Alike m m :=
  ⟨rfl, rfl, rfl, fun _ => rfl⟩

theorem Alike.trans (h₁ : Alike m₁ m₂) (h₂ : Alike m₂ m₃) : Alike m₁ m₃ :=
  ⟨h₂.exchanges.trans h₁.exchanges, h₂.bindings.trans h₁.bindings,
    h₂.declarations.trans h₁.declarations, fun queue => (h₂.ready queue).trans (h₁.ready queue)⟩

theorem alike_release (m : Memory) (channel : ChannelId) : Alike m (m.release channel) := by
  refine ⟨?_, bindings_release m channel, declarations_release m channel,
    (release_change m channel).ready⟩
  unfold release
  split
  · rfl
  · split
    · rfl
    · rename_i c _ _
      have h := (same_notifies Notify.notifyAll
        { m with channels := m.channels.set channel { c with closed := true } } c.consuming).frame
      simpa using congrArg Memory.exchanges h

theorem assured_closeAndDrop (channel : ChannelId) :
    Assured Alike (fun _ => True) (Session.closeAndDrop channel) fun _ _ => True := by
  have stable : Stable fun _ => True := fun _ _ _ _ => trivial
  have hclose : Assured Alike (fun _ => True) (Session.close channel) fun _ _ => True :=
    .request stable (fun _ => stable) fun s _ => ⟨alike_release s.memory channel, trivial⟩
  exact hclose.bind fun _ =>
    .request stable (fun _ => stable) fun s _ => ⟨alike_release s.memory channel, trivial⟩

/-- The group has opened a channel, on which it can declare. -/
def Opened (ds : List Declaration) : Except TransportError ChannelId → Scene → Prop
  | .ok channel, s => Standing ds channel s
  | .error _, _ => False

theorem assured_openChannel :
    Assured Alike (fun s => ∀ d ∈ ds, d.Stands s.memory) Session.openChannel (Opened ds) := by
  refine .request (fun s activity _ h d hd => d.lasting_stands _ _ (h d hd)) ?_ fun s h => ?_
  · rintro (e | channel) s activity hspares h
    · exact h
    · exact stable_standing s activity hspares h
  · refine ⟨⟨rfl, rfl, rfl, fun _ => rfl⟩, List.mem_append_right _ (List.mem_singleton_self _), ?_, ?_,
      fun d hd => d.lasting_stands _ (.request .openChannel) (h d hd)⟩
    · have hmade : Activity.made s.memory (.request .openChannel) =
          some (.channel s.memory.channels.length) := rfl
      exact (has_made hmade).2
    · simp [Scene.asked, answer, addChannel, isClosed]

theorem assured_groupDeclare {g : Group}
    (hds : ∀ consumer ∈ g.consumers, ∀ d ∈ Consumer.declarations consumer.config, d ∈ ds) :
    Assured Alike (fun s => ∀ d ∈ ds, d.Stands s.memory) g.declare fun result _ => result = .ok () := by
  refine assured_openChannel.bind ?_
  rintro (e | channel)
  · exact fun _ _ _ _ h _ => h.elim
  · refine ((assured_declareEach hds).mono fun m m' h => h ▸ Alike.refl m).bind ?_
    have hclose : Assured Alike (fun _ => True)
        ((Session.closeAndDrop channel).bind fun _ => .done (.ok () : Except ConsumeError Unit))
        fun result _ => result = .ok () :=
      (assured_closeAndDrop channel).bind fun _ => .done (fun _ _ _ _ => trivial) fun _ _ => rfl
    rintro result s seen a s' ⟨rfl, -⟩ h
    exact hclose trivial h

/-! ## What a group has declared -/

theorem stands_of_declareEach {consumers : List Consumer}
    (h : Carried m (Group.declareEach channel consumers) (.ok ()) m') {consumer : Consumer}
    (hconsumer : consumer ∈ consumers) {d : Declaration}
    (hd : d ∈ Consumer.declarations consumer.config) (hreflexive : d.Reflexive) : d.Stands m' := by
  induction consumers generalizing m with
  | nil => cases hconsumer
  | cons first rest ih =>
    obtain ⟨result, m₁, hfirst, hrest⟩ := Carried.bind_cases h
    cases result with
    | error e => cases hrest.done_eq
    | ok =>
      obtain rfl | hconsumer := List.mem_cons.mp hconsumer
      · exact hrest.lasting d.lasting_stands (Consumer.stands_of_declare hfirst hd hreflexive)
      · exact ih hrest hconsumer

theorem stands_of_groupDeclare {g : Group} (h : Carried m g.declare (.ok ()) m') {consumer : Consumer}
    (hconsumer : consumer ∈ g.consumers) {d : Declaration}
    (hd : d ∈ Consumer.declarations consumer.config) (hreflexive : d.Reflexive) : d.Stands m' := by
  obtain ⟨result, m₁, -, hopened⟩ := Carried.bind_cases h
  cases result with
  | error e => cases hopened.done_eq
  | ok channel =>
    obtain ⟨result, m₂, hdeclared, hclosing⟩ := Carried.bind_cases hopened
    obtain ⟨_, m₃, -, hend⟩ := Carried.bind_cases hclosing
    obtain rfl := hend.done_eq
    exact hclosing.lasting d.lasting_stands (stands_of_declareEach hdeclared hconsumer hd hreflexive)

/-! ## All activities -/

/-- However the session is carried out from here, with others in between or with nothing, it succeeds,
and its requests change the broker in this way only. -/
structure Redeclared (Step : Memory → Memory → Prop) (s : Scene)
    (p : Session (Except ConsumeError Unit)) : Prop where
  alone : (p.run answer s.memory).1 = .ok () ∧ Step s.memory (p.run answer s.memory).2
  among : ∀ seen result s', Undisturbed s p seen result s' →
    result = .ok () ∧ ∀ x ∈ seen, Step x.1 x.2

theorem Assured.redeclared {Step : Memory → Memory → Prop} {Before : Scene → Prop}
    {p : Session (Except ConsumeError Unit)} {After : Except ConsumeError Unit → Scene → Prop}
    (h : Assured Step Before p After) (hok : ∀ result s, After result s → result = .ok ())
    (hrefl : ∀ m, Step m m) (htrans : ∀ m₁ m₂ m₃, Step m₁ m₂ → Step m₂ m₃ → Step m₁ m₃)
    (hs : Before s) : Redeclared Step s p where
  alone := by
    obtain ⟨hstep, own, hafter⟩ := h.run hrefl htrans hs
    exact ⟨hok _ _ hafter, hstep⟩
  among seen result s' hp := by
    obtain ⟨hsteps, hafter⟩ := h hs hp
    exact ⟨hok _ _ hafter, hsteps⟩

/-- What is declared at a broker stays, and can be declared again. -/
structure Firm (m : Memory) : Prop where
  /-- An exchange keeps its kind. -/
  exchanges : ∀ activities name kind, m.exchangeKind name = some kind →
    (m.after activities).exchangeKind name = some kind
  /-- A queue keeps its declaration. -/
  queues : ∀ activities name q, m.queue? name = some q →
    ∃ q', (m.after activities).queue? name = some q' ∧ q'.declaration = q.declaration
  /-- The bindings stay. -/
  bindings : ∀ activities, m.bindings <+: (m.after activities).bindings
  /-- No two bindings are equal, and each has its queue and its exchange. -/
  sound : Sound m
  /-- To declare what cannot be declared changes nothing. -/
  failed : ∀ (d : Declaration) channel e, ((d.request channel).run answer m).1 = .error e →
    ((d.request channel).run answer m).2 = m
  /-- A consumer that has once declared what it needs can do so again, on any open channel. -/
  consumer : ∀ config channel m', Carried m (Consumer.declare config channel) (.ok ()) m' →
    (∀ leaf ∈ Json.leavesOfMembers config.bindingArgs, leaf.Representable) →
    ∀ activities channel', (m'.after activities).isClosed channel' = false →
      Redeclared Eq ⟨[channel'], m'.after activities⟩ (Consumer.declare config channel')
  /-- So can a group. -/
  group : ∀ (g : Group) m', Carried m g.declare (.ok ()) m' →
    (∀ consumer ∈ g.consumers, ∀ leaf ∈ Json.leavesOfMembers consumer.config.bindingArgs,
      leaf.Representable) →
    ∀ activities, Redeclared Alike ⟨[], m'.after activities⟩ g.declare

/-- Whatever has befallen a broker, what is declared there is firm. -/
theorem firm_after (activities : List Activity) : Firm (({} : Memory).after activities) where
  exchanges more name kind h := (lasting_exchangeKind name kind).after h more
  queues more name q h :=
    (lasting_declaration name (· = q.declaration)).after ⟨q, h, rfl⟩ more
  bindings more := bindings_after _ more
  sound := sound_after activities
  failed d channel e h := by
    rw [Declaration.run_request] at h ⊢
    obtain ⟨e', he⟩ | ⟨m', -, he⟩ := onOpen_cases _ channel (d.operation _)
    · rw [he]
    · rw [he] at h
      cases h
  consumer config channel m' hdeclared harguments more channel' hopen := by
    have hstands : ∀ d ∈ Consumer.declarations config, d.Stands (m'.after more) := fun d hd =>
      d.lasting_stands.after (Consumer.stands_of_declare hdeclared hd
        (Consumer.reflexive_declarations harguments d hd)) more
    have hthere : (m'.after more).Has (.channel channel') := by
      unfold isClosed at hopen
      split at hopen
      · rename_i c hc
        exact (List.getElem?_eq_some_iff.mp hc).1
      · cases hopen
    exact (assured_declare fun _ hd => hd).redeclared (fun _ _ h => h.1) Eq.refl
      (fun _ _ _ => Eq.trans) ⟨List.mem_singleton_self _, hthere, hopen, hstands⟩
  group g m' hdeclared harguments more := by
    have hstands : ∀ d ∈ g.consumers.flatMap fun consumer => Consumer.declarations consumer.config,
        d.Stands (m'.after more) := fun d hd => by
      obtain ⟨consumer, hconsumer, hd⟩ := List.mem_flatMap.mp hd
      exact d.lasting_stands.after (stands_of_groupDeclare hdeclared hconsumer hd
        (Consumer.reflexive_declarations (harguments consumer hconsumer) d hd)) more
    exact (assured_groupDeclare fun consumer hconsumer d hd =>
        List.mem_flatMap.mpr ⟨consumer, hconsumer, hd⟩).redeclared (fun _ _ h => h) Alike.refl
      (fun _ _ _ => Alike.trans) hstands

/-- A consumer that wants dead letters, which another consumer reads. -/
def paired : Group :=
  { consumers := [⟨jobs, fun _ => .done (.returned (.ok ()))⟩,
      ⟨{ queue := "jobs.dlq" }, fun _ => .done (.returned (.ok ()))⟩] }
where
  jobs : ConsumerConfig :=
    { queue := "jobs", exchange := some "events", routingKey := "job.*",
      deadLetterExchange := some "dlx" }

/-- The exchange of the jobs is declared. -/
def prepared : List Activity :=
  [.request .openChannel, .request (.declareExchange 0 "events" .topic true)]

/-- A job is published and rejected, and another queue gets the jobs, too. -/
def traffic : List Activity :=
  [.request (.publish 0 ⟨{ exchange := "events", routingKey := "job.new" }, []⟩ {}),
    .request (.consume 0 "jobs" false), .ask 0, .request (.nack 0 false),
    .request (.declareQueue 0 { name := "audit" }),
    .request (.bindQueue 0 "audit" "events" "job.*" [])]

theorem redeclared_paired :
    let byGroup := (paired.declare.run answer (({} : Memory).after prepared)).2
    let byConsumer := ((Consumer.declare paired.jobs 0).run answer (({} : Memory).after prepared)).2
    Redeclared Alike ⟨[], byGroup.after traffic⟩ paired.declare ∧
      Redeclared Eq ⟨[0], byConsumer.after traffic⟩ (Consumer.declare paired.jobs 0) := by
  intro byGroup byConsumer
  have hgroup := carried_run paired.declare (({} : Memory).after prepared)
  have hconsumer := carried_run (Consumer.declare paired.jobs 0) (({} : Memory).after prepared)
  have hgroupOk : (paired.declare.run answer (({} : Memory).after prepared)).1 = .ok () := by
    decide +kernel
  have hconsumerOk :
      ((Consumer.declare paired.jobs 0).run answer (({} : Memory).after prepared)).1 = .ok () := by
    decide +kernel
  have hopen : (byConsumer.after traffic).isClosed 0 = false := by decide +kernel
  rw [hgroupOk] at hgroup
  rw [hconsumerOk] at hconsumer
  refine ⟨(firm_after prepared).group paired byGroup hgroup ?_ traffic,
    (firm_after prepared).consumer paired.jobs 0 byConsumer hconsumer (List.forall_mem_nil _) traffic 0
      hopen⟩
  exact List.forall_mem_cons.mpr ⟨List.forall_mem_nil _,
    List.forall_mem_singleton.mpr (List.forall_mem_nil _)⟩

end Memory

end Courier
