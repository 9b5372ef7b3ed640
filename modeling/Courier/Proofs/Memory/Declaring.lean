import Courier.Proofs.Memory.Topology

/-!
# What has been declared stands

A consumer declares one thing after another until one of them fails. When it has succeeded, each of
its `declarations` stands (`stands_of_declare`), and stands whatever befalls the broker afterwards
(`lasting_stands`). What stands can be declared again, and then the broker does not change
(`operation_of_stands`).
-/

namespace Courier

namespace Memory

open Transport (Session)

variable {m m' : Memory}

/-- The bindings are equal, as the broker compares them. -/
structure Binding.Equal (a b : Binding) : Prop where
  queue : a.queue = b.queue
  exchange : a.exchange = b.exchange
  routingKey : a.routingKey = b.routingKey
  arguments : sameArguments a.arguments b.arguments = true

theorem hasBinding_iff {b : Binding} : m.hasBinding b = true ↔ ∃ c ∈ m.bindings, c.Equal b := by
  simp only [hasBinding, List.any_eq_true, Bool.and_eq_true, beq_iff_eq]
  constructor
  · rintro ⟨c, hc, ⟨⟨hqueue, hexchange⟩, hkey⟩, harguments⟩
    exact ⟨c, hc, hqueue, hexchange, hkey, harguments⟩
  · rintro ⟨c, hc, hqueue, hexchange, hkey, harguments⟩
    exact ⟨c, hc, ⟨⟨hqueue, hexchange⟩, hkey⟩, harguments⟩

/-- What can be declared at a broker. -/
inductive Declaration where
  | exchange (name : String) (kind : ExchangeKind) (durable : Bool)
  | queue (declaration : QueueDeclaration)
  | binding (b : Binding)

namespace Declaration

/-- How a session declares it. -/
def request (channel : ChannelId) : Declaration → Session (Except TransportError Unit)
  | .exchange name kind durable => Session.declareExchange channel name kind durable
  | .queue declaration => Session.declareQueue channel declaration
  | .binding b => Session.bindQueue channel b.queue b.exchange b.routingKey b.arguments

/-- What the broker does when it is declared on an open channel. -/
def operation (m : Memory) : Declaration → Except TransportError Memory
  | .exchange name kind _ => m.declareExchange name kind
  | .queue declaration => m.declareQueue declaration
  | .binding b => m.bindQueue b

theorem run_request (d : Declaration) (channel : ChannelId) (m : Memory) :
    (d.request channel).run answer m = m.onOpen channel (d.operation m) := by
  cases d <;> rfl

/-- The arguments equal themselves. -/
def Reflexive : Declaration → Prop
  | .exchange .. => True
  | .queue declaration => sameArguments declaration.arguments declaration.arguments = true
  | .binding b => sameArguments b.arguments b.arguments = true

/-- It has been declared. -/
def Stands (m : Memory) : Declaration → Prop
  | .exchange name kind _ => m.exchangeKind name = some kind
  | .queue declaration => ∃ q, m.queue? declaration.name = some q ∧
      q.declaration.durable = declaration.durable ∧
      sameArguments q.declaration.arguments declaration.arguments = true
  | .binding b => m.queueExists b.queue = true ∧ (∃ kind, m.exchangeKind b.exchange = some kind) ∧
      ∃ c ∈ m.bindings, c.Equal b

theorem operation_of_stands {d : Declaration} (h : d.Stands m) : d.operation m = .ok m := by
  cases d with
  | exchange name kind durable =>
    have hkind : m.exchangeKind name = some kind := h
    rw [operation, Memory.declareExchange, hkind]
    exact if_pos rfl
  | queue declaration =>
    obtain ⟨q, hq, hdurable, harguments⟩ := h
    rw [operation, Memory.declareQueue, hq]
    exact if_pos (by rw [hdurable, harguments, beq_self_eq_true, Bool.and_self])
  | binding b =>
    obtain ⟨hqueue, ⟨kind, hkind⟩, hbound⟩ := h
    simp [operation, Memory.bindQueue, hqueue, hkind, hasBinding_iff.mpr hbound]

theorem stands_of_operation {d : Declaration} (hreflexive : d.Reflexive)
    (h : d.operation m = .ok m') : d.Stands m' := by
  cases d with
  | exchange name kind durable =>
    obtain ⟨hkind, rfl⟩ | ⟨hnone, rfl⟩ := declareExchange_eq_ok h
    · exact hkind
    · rw [exchangeKind] at hnone
      simp [Stands, exchangeKind, List.lookup_append, hnone]
  | queue declaration =>
    obtain ⟨hq, rfl⟩ | ⟨hnone, rfl⟩ := declareQueue_eq_ok h
    · exact hq
    · refine ⟨{ declaration }, ?_, rfl, hreflexive⟩
      rw [queue?] at hnone
      simp [queue?, List.lookup_append, hnone]
  | binding b =>
    obtain ⟨hqueue, hexchange, hbound⟩ := bindQueue_eq_ok h
    rw [Option.isSome_iff_exists] at hexchange
    obtain ⟨hbound, rfl⟩ | ⟨-, rfl⟩ := hbound
    · exact ⟨hqueue, hexchange, hasBinding_iff.mp hbound⟩
    · exact ⟨hqueue, hexchange, b, by simp, rfl, rfl, rfl, hreflexive⟩

theorem lasting_stands (d : Declaration) : Lasting fun m => d.Stands m := by
  cases d with
  | exchange name kind durable => exact lasting_exchangeKind name kind
  | queue declaration =>
    exact lasting_declaration declaration.name fun existing =>
      existing.durable = declaration.durable ∧
        sameArguments existing.arguments declaration.arguments = true
  | binding b =>
    rintro m activity ⟨hqueue, ⟨kind, hkind⟩, hbound⟩
    exact ⟨lasting_queueExists _ m activity hqueue,
      ⟨kind, lasting_exchangeKind _ _ m activity hkind⟩, lasting_binding (·.Equal b) m activity hbound⟩

/-- It stands if it was answered with success. -/
theorem stands_of_carried {d : Declaration} (hreflexive : d.Reflexive) {channel : ChannelId}
    (h : Carried m (d.request channel) (.ok ()) m') : d.Stands m' := by
  have answered : ∀ m : Memory, (m.onOpen channel (d.operation m)).1 = .ok () →
      d.Stands (m.onOpen channel (d.operation m)).2 := fun m hok => by
    obtain ⟨e, he⟩ | ⟨m', hm', he⟩ := onOpen_cases m channel (d.operation m)
    · rw [he] at hok
      cases hok
    · rw [he]
      exact stands_of_operation hreflexive hm'
  cases d with
  | exchange name kind durable => exact h.request (lasting_stands _) answered
  | queue declaration => exact h.request (lasting_stands _) answered
  | binding b => exact h.request (lasting_stands _) answered

end Declaration

end Memory

namespace Consumer

open Memory

variable {config : ConsumerConfig} {channel : ChannelId} {m m' : Memory}

/-- What a consumer declares, in its order. -/
def declarations (config : ConsumerConfig) : List Declaration :=
  (match config.deadLetterExchange with
    | none => []
    | some exchange => [.exchange exchange .topic true,
        .queue { name := config.deadLetterQueue, durable := true },
        .binding ⟨config.deadLetterQueue, exchange, config.deadLetterKey, []⟩]) ++
  [.queue (queueDeclaration config)] ++
  (match config.exchange with
    | none => []
    | some exchange => [.binding ⟨config.queue, exchange, config.routingKey, config.bindingArgs⟩])

theorem declare_eq (config : ConsumerConfig) (channel : ChannelId) :
    declare config channel =
      (untilError ((declarations config).map (·.request channel))).bind fun result =>
        match result with
        | .error e => .done (.error (.declare config.queue e))
        | .ok () => .done (.ok ()) := by
  unfold declare declarations deadLetterSteps bindingSteps
  cases config.deadLetterExchange <;> cases config.exchange <;> rfl

theorem stands_of_declare (h : Carried m (declare config channel) (.ok ()) m') {d : Declaration}
    (hd : d ∈ declarations config) (hreflexive : d.Reflexive) : d.Stands m' := by
  rw [declare_eq] at h
  obtain ⟨result, m₁, hsteps, hend⟩ := Carried.bind_cases h
  cases result with
  | error e => cases hend.done_eq
  | ok =>
    refine hend.lasting d.lasting_stands ?_
    exact hsteps.untilError d.lasting_stands (List.mem_map_of_mem hd) fun _ _ hstep =>
      Declaration.stands_of_carried hreflexive hstep

end Consumer

end Courier
