import Courier.Proofs.Memory.Queues

/-!
# What a request changes in a broker

Most requests touch neither the log nor a queue. `Change` says what such a request can do, and
`answer_change` that this is all that any request does but a publish and a refusal; those two have
equations of their own (`publish_cases`, `nack_cases`), and so has a stream that is asked
(`next_asked`).

From these it follows what becomes of the log: it gets what an accepted publish adds
(`published_publish`), and nothing else (`published_answer`, `Drawn.published`).
-/

namespace Courier

namespace Transport.Request

/-- Is it the request that hands over a message? -/
def isPublish : Transport.Request → Bool
  | .publish .. => true
  | _ => false

/-- Is it the request that refuses a delivery? -/
def isRefusal : Transport.Request → Bool
  | .nack .. => true
  | _ => false

end Transport.Request

namespace Memory

variable {m m' : Memory}

/-- What a request can do that neither publishes nor refuses. -/
inductive Change (m : Memory) : Memory → Prop where
  | still : Change m m
  | channels (channels : List Channel) : Change m { m with channels }
  | exchange (name : String) (kind : ExchangeKind) (h : m.exchangeKind name = none) :
      Change m { m with exchanges := m.exchanges ++ [(name, kind)] }
  | queue (declaration : QueueDeclaration) (h : m.queue? declaration.name = none) :
      Change m { m with queues := m.queues ++ [(declaration.name, { declaration })] }
  | binding (b : Binding) : Change m { m with bindings := m.bindings ++ [b] }
  | stream (s : Stream) (channels : List Channel) :
      Change m { m with streams := m.streams ++ [s], channels }
  | settle {delivery : DeliveryId} {d : Delivery} (records : List AckRecord)
      (h : m.deliveries[delivery]? = some d) :
      Change m { m with
        deliveries := m.deliveries.set delivery { d with settled := true }
        acknowledgements := records }
  /-- Some are woken besides. -/
  | wake {m' m'' : Memory} (h : Change m m') (hs : Same m' m'') : Change m m''

theorem same_notifies (f : Notify → Notify × List Nat) (m : Memory) (names : List String) :
    Same m (names.foldl (fun m name => m.notify name f) m) := by
  induction names generalizing m with
  | nil => exact .refl m
  | cons name names ih => exact (same_notify m name f).trans (ih _)

theorem release_change (m : Memory) (channel : ChannelId) : Change m (m.release channel) := by
  unfold release
  split
  · exact .still
  · split
    · exact .still
    · exact (Change.channels _).wake (same_notifies Notify.notifyAll _ _)

theorem settle_change {delivery : DeliveryId} {outcome : Outcome} {d : Delivery}
    (h : m.settle delivery outcome = .ok (d, m')) :
    Change m m' ∧ m.deliveries[delivery]? = some d ∧ m'.queues = m.queues ∧
      m'.deliveries = m.deliveries.set delivery { d with settled := true } := by
  unfold settle at h
  split at h
  · cases h
  · rename_i d' hd
    split at h
    · cases h
    · cases h
      exact ⟨.settle _ hd, hd, rfl, rfl⟩

/-- What holds of the broker and of what an operation makes of it holds in the end, also of an operation
that fails. -/
theorem unchangedOnError_elim {P : Memory → Prop} {result : Except TransportError Memory} (hm : P m)
    (h : ∀ m', result = .ok m' → P m') : P (m.unchangedOnError result).2 := by
  cases result with
  | error e => exact hm
  | ok m' => exact h m' rfl

/-- An operation on a channel fails and changes nothing, or does what it does. -/
theorem onOpen_cases (m : Memory) (channel : ChannelId) (result : Except TransportError Memory) :
    (∃ e, m.onOpen channel result = (.error e, m)) ∨
      ∃ m', result = .ok m' ∧ m.onOpen channel result = (.ok (), m') := by
  unfold onOpen
  cases m.openChannel? channel with
  | error e => exact .inl ⟨e, rfl⟩
  | ok c =>
    cases result with
    | error e => exact .inl ⟨e, rfl⟩
    | ok m' => exact .inr ⟨m', rfl, rfl⟩

theorem onOpen_elim {P : Memory → Prop} {channel : ChannelId} {result : Except TransportError Memory}
    (hm : P m) (h : ∀ m', result = .ok m' → P m') : P (m.onOpen channel result).2 := by
  obtain ⟨e, he⟩ | ⟨m', hm', he⟩ := onOpen_cases m channel result
  · exact he ▸ hm
  · exact he ▸ h m' hm'

/-- An exchange was declared as this kind before, or it is now. -/
theorem declareExchange_eq_ok {name : String} {kind : ExchangeKind}
    (h : m.declareExchange name kind = .ok m') :
    m.exchangeKind name = some kind ∧ m' = m ∨
      m.exchangeKind name = none ∧ m' = { m with exchanges := m.exchanges ++ [(name, kind)] } := by
  unfold declareExchange at h
  split at h
  · rename_i existing hexisting
    split at h <;> cases h
    rename_i hkind
    exact .inl ⟨hkind ▸ hexisting, rfl⟩
  · rename_i hnone
    cases h
    exact .inr ⟨hnone, rfl⟩

/-- A queue was declared with the same parameters before, or it is now. -/
theorem declareQueue_eq_ok {declaration : QueueDeclaration}
    (h : m.declareQueue declaration = .ok m') :
    (∃ q, m.queue? declaration.name = some q ∧ q.declaration.durable = declaration.durable ∧
      sameArguments q.declaration.arguments declaration.arguments = true) ∧ m' = m ∨
      m.queue? declaration.name = none ∧
        m' = { m with queues := m.queues ++ [(declaration.name, { declaration })] } := by
  unfold declareQueue at h
  split at h
  · rename_i existing hexisting
    split at h <;> cases h
    rename_i hsame
    obtain ⟨hdurable, harguments⟩ := Bool.and_eq_true_iff.mp hsame
    exact .inl ⟨⟨existing, hexisting, beq_iff_eq.mp hdurable, harguments⟩, rfl⟩
  · rename_i hnone
    cases h
    exact .inr ⟨hnone, rfl⟩

/-- The queue and the exchange of a binding exist, and it was there before, or it is now. -/
theorem bindQueue_eq_ok {b : Binding} (h : m.bindQueue b = .ok m') :
    m.queueExists b.queue = true ∧ (m.exchangeKind b.exchange).isSome = true ∧
      (m.hasBinding b = true ∧ m' = m ∨
        m.hasBinding b = false ∧ m' = { m with bindings := m.bindings ++ [b] }) := by
  unfold bindQueue at h
  split at h
  · cases h
  · rename_i hqueue
    split at h <;> cases h
    rename_i hexchange
    refine ⟨by simpa using hqueue, by simpa [Option.isSome_iff_ne_none] using hexchange, ?_⟩
    cases m.hasBinding b with
    | true => exact .inl ⟨rfl, rfl⟩
    | false => exact .inr ⟨rfl, rfl⟩

/-- A channel is open, and is one of those that confirm from now on. -/
theorem confirmSelect_eq_ok {channel : ChannelId} (h : m.confirmSelect channel = .ok m') :
    ∃ c, m.openChannel? channel = .ok c ∧
      m' = { m with channels := m.channels.set channel { c with confirm := true } } := by
  unfold confirmSelect at h
  cases hc : m.openChannel? channel with
  | error e => rw [hc] at h; cases h
  | ok c => rw [hc] at h; cases h; exact ⟨c, rfl, rfl⟩

theorem declareQueue_change {declaration : QueueDeclaration}
    (h : m.declareQueue declaration = .ok m') : Change m m' := by
  obtain ⟨-, rfl⟩ | ⟨hnone, rfl⟩ := declareQueue_eq_ok h
  · exact .still
  · exact .queue declaration hnone

/-- Any request but a publish and a refusal. -/
theorem answer_change {r : Transport.Request} (hp : r.isPublish = false) (hr : r.isRefusal = false)
    (m : Memory) : Change m (answer r m).2 := by
  cases r with
  | publish => cases hp
  | nack => cases hr
  | openChannel => exact .channels _
  | confirmSelect channel =>
    refine unchangedOnError_elim .still fun m' hm => ?_
    obtain ⟨c, -, rfl⟩ := confirmSelect_eq_ok hm
    exact .channels _
  | declareExchange channel name kind durable =>
    refine onOpen_elim .still fun m' hm => ?_
    obtain ⟨-, rfl⟩ | ⟨hnone, rfl⟩ := declareExchange_eq_ok hm
    · exact .still
    · exact .exchange name kind hnone
  | declareQueue channel declaration =>
    exact onOpen_elim .still fun m' hm => declareQueue_change hm
  | bindQueue channel queue exchange routingKey arguments =>
    refine onOpen_elim .still fun m' hm => ?_
    obtain ⟨-, -, ⟨-, rfl⟩ | ⟨-, rfl⟩⟩ := bindQueue_eq_ok hm
    · exact .still
    · exact .binding _
  | qos channel prefetch => exact onOpen_elim .still fun m' hm => by cases hm; exact .still
  | consume channel queue exclusive =>
    simp only [answer, consume]
    cases hc : m.openChannel? channel with
    | error e => exact .still
    | ok c =>
      cases hq : m.queueExists queue with
      | false => exact .still
      | true => exact .stream _ _
  | close channel => exact release_change m channel
  | dropChannel channel => exact release_change m channel
  | dropStream stream =>
    simp only [answer, dropStream]
    split
    · exact .still
    · exact Change.still.wake (same_notify m _ _)
  | ack delivery =>
    refine unchangedOnError_elim .still fun m' hm => ?_
    unfold ack at hm
    cases hs : m.settle delivery .ack with
    | error e => rw [hs] at hm; cases hm
    | ok settled =>
      rw [hs] at hm
      cases hm
      exact (settle_change hs).1

/-! ## Publishing, refusing, and asking a stream -/

/-- The copies that a publish puts into queues. -/
def copy (m : Memory) (publishing : Publishing) : Message :=
  ⟨m.copyInfo publishing (m.lastMessageId + 1), publishing.body⟩

/-- The names of messages tell their numbers. -/
theorem name_injective {n k : Nat} (h : s!"msg-{n}" = s!"msg-{k}") : n = k := by
  have hdigits : Nat.toDigits 10 n = Nat.toDigits 10 k := by
    simpa [toString] using congrArg String.toList h
  rw [← Nat.ofDigitChars_ten_toDigits (n := n), hdigits, Nat.ofDigitChars_ten_toDigits]

theorem frame_accept (m : Memory) (publishing : Publishing) (targets : List String) :
    (m.accept publishing targets).frame =
      { m.frame with
        published := m.published ++ [publishing]
        lastMessageId := m.lastMessageId + 1 } :=
  frame_pushes _ targets _

theorem ready?_accept (m : Memory) (publishing : Publishing) (targets : List String)
    (queue : String) :
    (m.accept publishing targets).ready? queue =
      (m.ready? queue).map (· ++ List.replicate (targets.count queue) (m.copy publishing)) :=
  ready?_pushes _ targets _ queue

/-- A publish is accepted, or it fails and only counts an injected failure down. -/
theorem publish_cases (m : Memory) (channel : ChannelId) (publishing : Publishing)
    (options : PublishOptions) :
    (∃ e n, m.publish channel publishing options =
      (.error e, { m with failingPublishes := n })) ∨
    ∃ targets, m.route publishing.destination = .ok targets ∧
      m.publish channel publishing options = (.ok (), m.accept publishing targets) := by
  unfold publish
  split
  · exact .inl ⟨_, m.failingPublishes, rfl⟩
  · split
    · exact .inl ⟨_, m.failingPublishes, rfl⟩
    · split
      · exact .inl ⟨_, _, rfl⟩
      · split
        · exact .inl ⟨_, m.failingPublishes, rfl⟩
        · rename_i targets hroute
          exact .inr ⟨targets, hroute, rfl⟩

/-- A message and the same one again, perhaps as a dead letter. -/
structure Message.Again (message again : Message) : Prop where
  messageId : again.info.messageId = message.info.messageId
  body : again.body = message.body

/-- What is put back or sent on is the message that was refused. -/
structure Returned (m : Memory) (message : Message) (m' : Memory) : Prop where
  frame : m'.frame = m.frame
  ready : ∀ queue, ∃ front back,
    m'.ready? queue = (m.ready? queue).map (fun messages => front ++ messages ++ back) ∧
      ∀ x ∈ front ++ back, Message.Again message x

theorem returned_requeue (m : Memory) (name : String) (message : Message) :
    Returned m message (m.requeue name message) := by
  refine ⟨frame_requeue m name message, fun queue => ?_⟩
  rw [ready?_requeue]
  split
  · refine ⟨[message], [], by simp, fun x hx => ?_⟩
    rw [List.append_nil] at hx
    rw [List.mem_singleton.mp hx]
    exact ⟨rfl, rfl⟩
  · exact ⟨[], [], by simp, by simp⟩

theorem returned_pushes (m : Memory) (targets : List String) {message x : Message}
    (h : Message.Again message x) :
    Returned m message (targets.foldl (fun m target => m.push target x) m) := by
  refine ⟨frame_pushes m targets x, fun queue =>
    ⟨[], List.replicate (targets.count queue) x, ?_, fun y hy => ?_⟩⟩
  · simp only [ready?_pushes, List.nil_append]
  · rw [List.nil_append] at hy
    rw [List.eq_of_mem_replicate hy]
    exact h

theorem returned_deadLetter (m : Memory) (name : String) (message : Message) :
    Returned m message (m.deadLetter name message) := by
  have still : Returned m message m := ⟨rfl, fun queue => ⟨[], [], by simp, by simp⟩⟩
  unfold deadLetter
  split
  · exact still
  · split
    · exact still
    · exact returned_pushes m _ ⟨rfl, rfl⟩

/-- A refusal does nothing, or it settles the delivery and returns its message. -/
theorem nack_cases (m : Memory) (delivery : DeliveryId) (requeue : Bool) :
    (answer (.nack delivery requeue) m).2 = m ∨
    ∃ d m₁, m.deliveries[delivery]? = some d ∧ Change m m₁ ∧ m₁.queues = m.queues ∧
      Returned m₁ d.message (answer (.nack delivery requeue) m).2 := by
  simp only [answer, nack]
  cases hs : m.settle delivery (.nack requeue) with
  | error e => exact .inl rfl
  | ok settled =>
    obtain ⟨d, m₁⟩ := settled
    obtain ⟨hc, hd, hq, -⟩ := settle_change hs
    refine .inr ⟨d, m₁, hd, hc, hq, ?_⟩
    cases requeue with
    | true => exact returned_requeue m₁ d.queue d.message
    | false => exact returned_deadLetter m₁ d.queue d.message

/-- What a stream of a queue can answer: nothing, or the next message, which is then a delivery. -/
inductive Asked (m : Memory) (queue : String) : Transport.Next × Memory → Prop where
  | nothing {answer : Transport.Next} {m' : Memory}
      (hanswer : ∀ d message, answer ≠ .delivered d message) (hs : Same m m') :
      Asked m queue (answer, m')
  | message {message : Message} {rest : List Message} {m' : Memory}
      (hready : m.ready? queue = some (message :: rest))
      (hframe : m'.frame =
        { m.frame with deliveries := m.deliveries ++ [⟨queue, message, false⟩] })
      (hrest : ∀ name, m'.ready? name = if name = queue then some rest else m.ready? name) :
      Asked m queue (.delivered m.deliveries.length message, m')

theorem draw_asked (m : Memory) (s : Stream) : Asked m s.queue (m.draw s) := by
  unfold draw
  split
  · exact .nothing (by simp) (.refl m)
  · split
    · rename_i message m₁ hpop
      obtain ⟨rest, hready, hframe, hrest⟩ := ready?_pop hpop
      have hdeliveries : m₁.deliveries = m.deliveries := by
        simpa using congrArg Memory.deliveries hframe
      rw [hdeliveries]
      refine .message hready ?_ hrest
      rw [← hframe]
      rfl
    · exact .nothing (by simp) (.refl m)

/-- Wake-ups that came before make no difference. -/
theorem Asked.of_same {queue : String} {answer : Transport.Next × Memory} (h : Asked m' queue answer)
    (hs : Same m m') : Asked m queue answer := by
  have hdeliveries : m'.deliveries = m.deliveries := by
    simpa using congrArg Memory.deliveries hs.frame
  cases h with
  | nothing hanswer hs' => exact .nothing hanswer (hs.trans hs')
  | message hready hframe hrest =>
    rw [hdeliveries]
    refine .message (by rw [← hs.ready, hready]) ?_ fun name => by rw [hrest, hs.ready]
    rw [hframe, hs.frame, hdeliveries]

section Asked

variable {stream : StreamId} {s : Stream}

/-- A stream has the next message of its queue, or nothing. -/
theorem look_asked (hs : m.streams[stream]? = some s) : Asked m s.queue (m.look stream) := by
  simp only [look, hs]
  split
  · exact .nothing (by simp) (.refl m)
  · rename_i q _
    split
    · exact .nothing (by simp) (.refl m)
    · cases q.available.takeWakeUp stream with
      | none => exact draw_asked m s
      | some available => exact (draw_asked _ s).of_same (same_modifyQueue m s.queue fun _ => rfl)

theorem same_lieDown (m : Memory) (stream : StreamId) : Same m (m.lieDown stream).2 := by
  unfold lieDown
  split
  · exact .refl m
  · split
    · exact .refl m
    · split
      · exact .refl m
      · rename_i s _ _ q _ _
        show Same m (m.modifyQueue s.queue fun q' =>
          { q' with available := (q.available.sleepOrTake stream).1 })
        exact same_modifyQueue m s.queue fun _ => rfl

/-- A stream that is asked gives the next message of its queue, or nothing. -/
theorem next_asked (hs : m.streams[stream]? = some s) : Asked m s.queue (m.next stream) := by
  have h := look_asked hs
  unfold next
  generalize m.look stream = found at h ⊢
  cases h with
  | message hready hframe hrest => exact .message hready hframe hrest
  | @nothing answer m' hanswer hsame =>
    cases answer with
    | waiting =>
      have hlain := hsame.trans (same_lieDown m' stream)
      dsimp only
      generalize m'.lieDown stream = lain at hlain ⊢
      obtain ⟨_ | _, m₁⟩ := lain
      · exact .nothing (by simp) (hlain.trans (same_lieDown m₁ stream))
      · exact .nothing (by simp) hlain
    | delivered d message => exact absurd rfl (hanswer d message)
    | ended => exact .nothing hanswer hsame
    | failed e => exact .nothing hanswer hsame

theorem look_of_none (hs : m.streams[stream]? = none) : m.look stream = (.ended, m) := by
  rw [look, hs]

theorem next_of_none (hs : m.streams[stream]? = none) : m.next stream = (.ended, m) := by
  rw [next, look_of_none hs]

end Asked

/-- What streams do to a broker: a message becomes a delivery, or nothing but wake-ups has changed. -/
inductive Drawn (m : Memory) : Memory → Prop where
  | nothing {m' : Memory} (hs : Same m m') : Drawn m m'
  | message {queue : String} {message : Message} {rest : List Message} {m' : Memory}
      (hready : m.ready? queue = some (message :: rest))
      (hframe : m'.frame =
        { m.frame with deliveries := m.deliveries ++ [⟨queue, message, false⟩] })
      (hrest : ∀ name, m'.ready? name = if name = queue then some rest else m.ready? name) :
      Drawn m m'

theorem Asked.drawn {queue : String} {answer : Transport.Next × Memory} (h : Asked m queue answer) :
    Drawn m answer.2 := by
  cases h with
  | nothing _ hs => exact .nothing hs
  | message hready hframe hrest => exact .message hready hframe hrest

/-! ## The log -/

theorem Change.published (h : Change m m') : m'.published = m.published := by
  induction h with
  | wake _ hs ih => rw [← ih, ← published_frame, hs.frame, published_frame]
  | _ => rfl

theorem Change.lastMessageId (h : Change m m') : m'.lastMessageId = m.lastMessageId := by
  induction h with
  | wake _ hs ih => rw [← ih, ← lastMessageId_frame, hs.frame, lastMessageId_frame]
  | _ => rfl

theorem lastMessageId_accept (m : Memory) (publishing : Publishing) (targets : List String) :
    (m.accept publishing targets).lastMessageId = m.lastMessageId + 1 := by
  simpa using congrArg Memory.lastMessageId (frame_accept m publishing targets)

theorem published_accept (m : Memory) (publishing : Publishing) (targets : List String) :
    (m.accept publishing targets).published = m.published ++ [publishing] := by
  simpa using congrArg Memory.published (frame_accept m publishing targets)

/-- A publish adds its message to the log if it is answered with success. -/
theorem published_publish (m : Memory) (channel : ChannelId) (publishing : Publishing)
    (options : PublishOptions) :
    (m.publish channel publishing options).2.published =
      match (m.publish channel publishing options).1 with
      | .ok () => m.published ++ [publishing]
      | .error _ => m.published := by
  rcases publish_cases m channel publishing options with ⟨e, n, h⟩ | ⟨targets, -, h⟩
  · rw [h]
  · rw [h, published_accept]

/-- No other request changes the log. -/
theorem published_answer {r : Transport.Request} (h : r.isPublish = false) (m : Memory) :
    (answer r m).2.published = m.published := by
  cases hr : r.isRefusal with
  | false => exact (answer_change h hr m).published
  | true =>
    cases r with
    | nack delivery requeue =>
      rcases nack_cases m delivery requeue with hm | ⟨d, m₁, -, hc, -, hm⟩
      · rw [hm]
      · rw [← hc.published, ← published_frame, hm.frame, published_frame]
    | _ => cases hr

theorem Drawn.published (h : Drawn m m') : m'.published = m.published := by
  cases h with
  | nothing hs => simpa using congrArg Memory.published hs.frame
  | message _ hframe _ => simpa using congrArg Memory.published hframe

end Memory

end Courier
