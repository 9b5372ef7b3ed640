import Courier.Proofs.Memory.Bindings
import Courier.Proofs.Memory.DeadLetters
import Courier.Proofs.Memory.Topics

/-!
# One copy for each queue

A publishing is put into the queue that is named by its key, or into each queue with a binding that
takes it (`Binding.Takes`). The bindings are gone through in their order and those of a queue that
was found before are passed over, so no queue is among the targets twice; and each of the targets is
there, since a binding has its queue (`Sound`). So each gets one copy and all other queues stay as
they were (`delivered_accept`). The number of the copies has not been given before (`Unused`): it is
one more than the last one, and what was numbered has a smaller number (`Numbered`).

`routed_after` puts this together for a publish on an open channel, whatever has befallen the broker.
-/

namespace Courier.Memory

variable {m m' : Memory} {a : Account} {queue : String} {destination : Destination}
  {publishing : Publishing}

/-! ## Bindings that take a message -/

/-- The headers have what the arguments of a binding ask for: all of it, or some if `x-match` is
`any`. -/
def HeadersFit (arguments headers : Headers) : Prop :=
  if (arguments.get? "x-match").bind Json.text? = some "any" then
    ∃ argument ∈ arguments, isReserved argument.1 = false ∧ hasHeader headers argument = true
  else ∀ argument ∈ arguments, isReserved argument.1 = false → hasHeader headers argument = true

theorem headersMatch_iff (arguments headers : Headers) :
    headersMatch arguments headers = true ↔ HeadersFit arguments headers := by
  unfold headersMatch HeadersFit
  cases arguments.get? "x-match" with
  | none => simp [← Bool.not_eq_true, or_iff_not_imp_left]
  | some value => by_cases h : value.text? = some "any" <;>
      simp [h, ← Bool.not_eq_true, or_iff_not_imp_left]

/-- An exchange of this kind sends a message to the queue of the binding. -/
inductive Binding.Takes (b : Binding) (destination : Destination) : ExchangeKind → Prop where
  | direct (h : b.routingKey = destination.routingKey) : Takes b destination .direct
  | fanout : Takes b destination .fanout
  | topic (h : Covers (patternWords b.routingKey) (keyWords destination.routingKey)) :
      Takes b destination .topic
  | headers (h : HeadersFit b.arguments destination.headers) : Takes b destination .headers

theorem Binding.takes_iff {b : Binding} {kind : ExchangeKind} :
    b.Takes destination kind ↔ b.matches kind destination = true := by
  cases kind with
  | direct =>
    rw [Binding.matches, beq_iff_eq]
    exact ⟨fun h => by cases h; assumption, .direct⟩
  | fanout => exact ⟨fun _ => rfl, fun _ => .fanout⟩
  | topic =>
    rw [Binding.matches, topicMatches, wordsMatch_iff]
    exact ⟨fun h => by cases h; assumption, .topic⟩
  | headers =>
    rw [Binding.matches, headersMatch_iff]
    exact ⟨fun h => by cases h; assumption, .headers⟩

/-! ## The queues of a message -/

/-- A message that goes to an exchange of this kind is for the queue. -/
def BoundFor (m : Memory) (destination : Destination) (kind : ExchangeKind) (queue : String) : Prop :=
  ∃ b ∈ m.bindings, b.queue = queue ∧ b.exchange = destination.exchange ∧ b.Takes destination kind

theorem route_default (h : destination.exchange = "") :
    m.route destination =
      .ok (if m.queueExists destination.routingKey then [destination.routingKey] else []) := by
  rw [route, h]
  rfl

theorem route_undeclared (hname : destination.exchange ≠ "")
    (hnone : m.exchangeKind destination.exchange = none) : ∃ e, m.route destination = .error e := by
  rw [route, if_neg (by simpa using hname), hnone]
  exact ⟨_, rfl⟩

theorem mem_boundQueues_iff {kind : ExchangeKind} :
    queue ∈ boundQueues kind destination m.bindings ↔ m.BoundFor destination kind queue := by
  simp only [mem_boundQueues, BoundFor, Binding.takes_iff]

/-- No queue of a binding is missing. -/
theorem Sound.route_bound (h : Sound m) (hname : destination.exchange ≠ "") {kind : ExchangeKind}
    (hkind : m.exchangeKind destination.exchange = some kind) :
    m.route destination = .ok (boundQueues kind destination m.bindings) := by
  rw [route, if_neg (by simpa using hname), hkind]
  refine congrArg Except.ok (List.filter_eq_self.mpr fun name hmem => ?_)
  obtain ⟨b, hb, rfl, -⟩ := mem_boundQueues.mp hmem
  exact (h.grounded b hb).queue

/-! ## One copy each -/

theorem queue?_push_of_ne {name : String} (h : queue ≠ name) (message : Message) :
    (m.push name message).queue? queue = m.queue? queue := by
  have hmodify : ∀ (m : Memory) (f : Queue → Queue),
      (m.modifyQueue name f).queue? queue = m.queue? queue :=
    fun m f => by rw [queue?_modifyQueue, if_neg h]
  unfold push notify
  split
  · exact hmodify m _
  · rename_i q _
    exact (hmodify _ fun q' => { q' with available := q.available.notifyOne.1 }).trans (hmodify m _)

theorem queue?_pushes_of_notMem {targets : List String} (h : queue ∉ targets) (message : Message) :
    (targets.foldl (fun m target => m.push target message) m).queue? queue = m.queue? queue := by
  induction targets generalizing m with
  | nil => rfl
  | cons target targets ih =>
    obtain ⟨hne, hrest⟩ := List.ne_and_not_mem_of_not_mem_cons h
    rw [List.foldl_cons, ih hrest, queue?_push_of_ne hne]

/-- A publishing has been accepted, and one copy of it was put into each of the selected
queues. -/
structure Delivered (m : Memory) (publishing : Publishing) (selected : String → Prop) (m' : Memory) :
    Prop where
  /-- The queue is there, and the copy is at its back. -/
  copied : ∀ queue, selected queue → m.queueExists queue = true ∧
    m'.ready queue = m.ready queue ++ [m.copy publishing]
  others : ∀ queue, ¬selected queue → m'.queue? queue = m.queue? queue
  /-- Beside queues, only the log and the number have changed. -/
  frame : m'.frame =
    { m.frame with
      published := m.published ++ [publishing]
      lastMessageId := m.lastMessageId + 1 }

theorem delivered_accept {targets : List String} {selected : String → Prop}
    (hroute : m.route publishing.destination = .ok targets) (hnodup : targets.Nodup)
    (hmem : ∀ queue, queue ∈ targets ↔ selected queue) :
    Delivered m publishing selected (m.accept publishing targets) where
  copied queue hselected := by
    have htarget := (hmem queue).mpr hselected
    have hexists := queueExists_of_route hroute queue htarget
    rw [ready_accept publishing targets hexists, List.count_eq_one_of_mem hnodup htarget]
    exact ⟨hexists, rfl⟩
  others queue hselected :=
    queue?_pushes_of_notMem (fun htarget => hselected ((hmem queue).mp htarget)) (m.copy publishing)
  frame := frame_accept m publishing targets

/-! ## Numbers -/

/-- The message has a number that was given. -/
def Numbered (m : Memory) (message : Message) : Prop :=
  ∃ n ≤ m.lastMessageId, message.info.messageId = some s!"msg-{n}"

theorem Numbered.keeps {message : Message} (h : m.Numbered message) (hk : Keeps m m') :
    m'.Numbered message := by
  obtain ⟨n, hn, hid⟩ := h
  exact ⟨n, Nat.le_trans hn hk.lastMessageId, hid⟩

theorem Numbered.ne_copy {message : Message} (h : m.Numbered message) (publishing : Publishing) :
    message.info.messageId ≠ (m.copy publishing).info.messageId := by
  obtain ⟨n, hn, hid⟩ := h
  intro he
  have := name_injective (Option.some.inj (hid.symm.trans he))
  omega

/-- A publish that is accepted gives the next number. -/
theorem numbered_copy {channel : ChannelId} {options : PublishOptions}
    (h : (m.publish channel publishing options).1 = .ok ()) :
    (m.publish channel publishing options).2.Numbered (m.copy publishing) := by
  rcases publish_cases m channel publishing options with ⟨e, n, hp⟩ | ⟨targets, -, hp⟩
  · rw [hp] at h
    cases h
  · rw [hp]
    exact ⟨m.lastMessageId + 1, Nat.le_of_eq (lastMessageId_accept ..).symm, rfl⟩

/-- Dead letters are the message that was rejected. -/
theorem again_of_mem_deadLetters {message : Message} {entry : String × Message}
    (h : entry ∈ m.deadLetters queue message) : Message.Again message entry.2 := by
  unfold deadLetters at h
  split at h
  · cases h
  · split at h
    · cases h
    · obtain ⟨target, -, rfl⟩ := List.mem_map.mp h
      exact ⟨rfl, rfl⟩

theorem numbered_note (hb : Balanced m a) (h : ∀ entry ∈ a.sent, m.Numbered entry.2)
    (activity : Activity) :
    ∀ entry ∈ (a.note m activity).sent, (m.act activity).Numbered entry.2 := by
  have kept : ∀ entry ∈ a.sent, (m.act activity).Numbered entry.2 :=
    fun entry hmem => (h entry hmem).keeps (keeps_act m activity)
  have settled : ∀ {delivery : DeliveryId} {outcome : Outcome} {answer : Except TransportError Memory},
      ∀ entry ∈ (a.noteSettled m delivery outcome answer).sent,
        (m.act activity).Numbered entry.2 := by
    intro delivery outcome answer
    unfold Account.noteSettled
    split
    · rename_i d hd
      refine List.forall_mem_append.mpr ⟨kept, fun entry hmem => ?_⟩
      split at hmem
      · -- what is rejected was put into its queue before
        obtain ⟨n, hn, hid⟩ := kept _ (hb.intact d (List.mem_of_getElem? hd))
        exact ⟨n, hn, (again_of_mem_deadLetters hmem).messageId.trans hid⟩
      · cases hmem
    · exact kept
  unfold Account.note
  split
  · split
    · rename_i channel publishing options hok
      refine List.forall_mem_append.mpr ⟨kept, fun entry hmem => ?_⟩
      unfold publishedCopies at hmem
      split at hmem
      · cases hmem
      · obtain ⟨target, -, rfl⟩ := List.mem_map.mp hmem
        exact numbered_copy hok
    · exact kept
  · exact settled
  · exact settled
  · exact kept

theorem numbered_noteAll (hb : Balanced m a) (h : ∀ entry ∈ a.sent, m.Numbered entry.2)
    (activities : List Activity) :
    ∀ entry ∈ (a.noteAll m activities).sent, (m.after activities).Numbered entry.2 := by
  induction activities generalizing m a with
  | nil => exact h
  | cons activity activities ih => exact ih (hb.step activity) (numbered_note hb h activity)

/-- No publish that was accepted has had the id, and no copy that was put into a queue. -/
structure Unused (activities : List Activity) (id : Option String) : Prop where
  publishes : ∀ before channel publishing options after,
    activities = before ++ .request (.publish channel publishing options) :: after →
    (answer (.publish channel publishing options) (({} : Memory).after before)).1 = .ok () →
    ((({} : Memory).after before).copy publishing).info.messageId ≠ id
  copies : ∀ entry ∈ (Account.noteAll {} {} activities).sent, entry.2.info.messageId ≠ id

theorem unused_copy (activities : List Activity) (publishing : Publishing) :
    Unused activities ((({} : Memory).after activities).copy publishing).info.messageId where
  publishes before channel publishing' options after hsplit hok := by
    have hafter : ({} : Memory).after activities = Memory.after
        ((({} : Memory).after before).publish channel publishing' options).2 after := by
      rw [hsplit, Memory.after, List.foldl_append]
      rfl
    rw [hafter]
    exact ((numbered_copy hok).keeps (keeps_after _ after)).ne_copy publishing
  copies entry hmem :=
    (numbered_noteAll balanced_empty (fun _ h => by cases h) activities entry hmem).ne_copy publishing

/-! ## A publish -/

/-- What comes of a publishing. -/
structure Routed (m : Memory) (publishing : Publishing)
    (outcome : Except TransportError Unit × Memory) : Prop where
  /-- The default exchange knows the queue by its name. -/
  default : m.failingPublishes = 0 → publishing.destination.exchange = "" →
    outcome.1 = .ok () ∧ Delivered m publishing
      (fun queue => queue = publishing.destination.routingKey ∧ m.queueExists queue = true) outcome.2
  /-- Any other exchange goes by its bindings. -/
  bound : m.failingPublishes = 0 → publishing.destination.exchange ≠ "" →
    ∀ kind, m.exchangeKind publishing.destination.exchange = some kind →
    outcome.1 = .ok () ∧
      Delivered m publishing (m.BoundFor publishing.destination kind) outcome.2
  undeclared : m.failingPublishes = 0 → publishing.destination.exchange ≠ "" →
    m.exchangeKind publishing.destination.exchange = none → ∃ e, outcome = (.error e, m)
  /-- A failure that was injected is used up. -/
  injected : m.failingPublishes ≠ 0 →
    ∃ e, outcome = (.error e, { m with failingPublishes := m.failingPublishes - 1 })

section Publish

variable {channel : ChannelId} {c : Channel} {options : PublishOptions}
  (hchannel : m.channels[channel]? = some c) (hopen : c.closed = false)
  (hconfirm : options.waitForConfirm = true → c.confirm = true)

include hchannel hopen hconfirm

theorem publish_of_failing (h : m.failingPublishes ≠ 0) :
    ∃ e, m.publish channel publishing options =
      (.error e, { m with failingPublishes := m.failingPublishes - 1 }) := by
  have hmode : ¬(options.waitForConfirm && !c.confirm) = true := by simpa using hconfirm
  rw [publish, openChannel?, hchannel]
  simp only [hopen, Bool.false_eq_true, if_false, if_neg hmode, if_pos (Nat.pos_of_ne_zero h)]
  exact ⟨_, rfl⟩

theorem publish_of_route (h : m.failingPublishes = 0) :
    m.publish channel publishing options = match m.route publishing.destination with
      | .error e => (.error e, m)
      | .ok targets => (.ok (), m.accept publishing targets) := by
  have hmode : ¬(options.waitForConfirm && !c.confirm) = true := by simpa using hconfirm
  rw [publish, openChannel?, hchannel]
  cases m.route publishing.destination <;>
  simp only [hopen, Bool.false_eq_true, if_false, if_neg hmode, h, Nat.lt_irrefl]

theorem publish_delivered {targets : List String} {selected : String → Prop}
    (h : m.failingPublishes = 0) (hroute : m.route publishing.destination = .ok targets)
    (hnodup : targets.Nodup) (hmem : ∀ queue, queue ∈ targets ↔ selected queue) :
    (m.publish channel publishing options).1 = .ok () ∧
      Delivered m publishing selected (m.publish channel publishing options).2 := by
  rw [publish_of_route hchannel hopen hconfirm h, hroute]
  exact ⟨rfl, delivered_accept hroute hnodup hmem⟩

theorem Sound.routed (h : Sound m) : Routed m publishing (m.publish channel publishing options) where
  default hfail hname := by
    refine publish_delivered hchannel hopen hconfirm hfail (route_default hname) ?_ fun queue => ?_
    · split <;> simp
    · split
      · rename_i hthere
        rw [List.mem_singleton]
        exact ⟨fun hq => ⟨hq, hq ▸ hthere⟩, And.left⟩
      · rename_i hnone
        refine ⟨fun hmem => absurd hmem List.not_mem_nil, ?_⟩
        rintro ⟨rfl, hthere⟩
        exact absurd hthere hnone
  bound hfail hname kind hkind :=
    publish_delivered hchannel hopen hconfirm hfail (h.route_bound hname hkind)
      (boundQueues_nodup _ _ _) fun _ => mem_boundQueues_iff
  undeclared hfail hname hnone := by
    obtain ⟨e, hroute⟩ := route_undeclared hname hnone
    rw [publish_of_route hchannel hopen hconfirm hfail, hroute]
    exact ⟨e, rfl⟩
  injected hfail := publish_of_failing hchannel hopen hconfirm hfail

end Publish

/-- Whatever has befallen a broker, a publish on an open channel puts one copy into each queue that the
publishing is for, and the copies have an id that has not been used. -/
theorem routed_after (activities : List Activity) {channel : ChannelId} {c : Channel}
    {options : PublishOptions}
    (hchannel : (({} : Memory).after activities).channels[channel]? = some c)
    (hopen : c.closed = false) (hconfirm : options.waitForConfirm = true → c.confirm = true)
    (publishing : Publishing) :
    Routed (({} : Memory).after activities) publishing
        (answer (.publish channel publishing options) (({} : Memory).after activities)) ∧
      Unused activities ((({} : Memory).after activities).copy publishing).info.messageId :=
  ⟨(sound_after activities).routed hchannel hopen hconfirm, unused_copy activities publishing⟩

/-- A queue has two bindings that take the message, and before and between them bindings that do not. -/
def crossed : List Activity :=
  let bind (queue pattern : String) := .request (.bindQueue 0 queue "events" pattern [])
  [.request .openChannel, .request (.confirmSelect 0),
    .request (.declareExchange 0 "events" .topic true),
    .request (.declareQueue 0 { name := "audit" }), .request (.declareQueue 0 { name := "mail" }),
    bind "audit" "user.*", bind "audit" "#", bind "mail" "user.#", bind "audit" "order.*"]

theorem routed_crossed :
    let m := ({} : Memory).after crossed
    let publishing : Publishing := ⟨{ exchange := "events", routingKey := "order.paid" }, []⟩
    ∃ m', answer (.publish 0 publishing { waitForConfirm := true }) m = (.ok (), m') ∧
      m'.ready "audit" = [m.copy publishing] ∧ m'.queue? "mail" = m.queue? "mail" ∧
      Unused crossed (m.copy publishing).info.messageId := by
  intro m publishing
  obtain ⟨hrouted, hunused⟩ := @routed_after crossed 0 { confirm := true }
    { waitForConfirm := true } rfl rfl (fun _ => rfl) publishing
  obtain ⟨hok, hdelivered⟩ := hrouted.bound rfl (by decide) .topic rfl
  refine ⟨_, Prod.ext hok rfl, ?_, hdelivered.others "mail" ?_, hunused⟩
  · exact (hdelivered.copied "audit" (mem_boundQueues_iff.mp (by decide +kernel))).2
  · exact fun h => absurd (mem_boundQueues_iff.mpr h) (by decide +kernel)

end Courier.Memory
