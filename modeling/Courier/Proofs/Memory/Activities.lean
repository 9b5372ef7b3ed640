import Courier.Proofs.Memory.Changes

/-!
# What befalls a broker

Whatever befalls a broker (`Activity`), what it has been told of its topology lasts, and so do its
streams and what it has delivered (`keeps_act`). A message that is sent to a queue now would
therefore be sent to it later, too (`sendsTo_of_keeps`). The log is only added to (`published_act`),
and a queue that is as long as it was has the messages that it had (`ready_act`).
-/

namespace Courier.Memory

variable {m m' m₁ m₂ m₃ : Memory} {queue : String}

/-! ## The messages that are ready -/

/-- The ready messages of a queue; none if there is no such queue. -/
def ready (m : Memory) (queue : String) : List Message :=
  (m.ready? queue).getD []

theorem length_ready (m : Memory) (queue : String) : (m.ready queue).length = m.queueLen queue := by
  unfold ready ready? queueLen
  cases m.queue? queue <;> rfl

theorem isSome_ready? (m : Memory) (queue : String) :
    (m.ready? queue).isSome = m.queueExists queue := by
  rw [ready?, Option.isSome_map, queueExists]

theorem Change.ready (h : Change m m') (queue : String) : m'.ready queue = m.ready queue := by
  induction h with
  | queue declaration hnone =>
    unfold queue? at hnone
    simp only [Memory.ready, ready?, queue?, List.lookup_append, List.lookup_cons, List.lookup_nil]
    -- a queue that has just been declared is empty
    by_cases hname : queue = declaration.name
    · subst hname
      simp [hnone]
    · simp [beq_eq_false_iff_ne.mpr hname]
  | wake _ hs ih => rw [← ih, Memory.ready, Memory.ready, hs.ready]
  | _ => rfl

theorem Returned.ready_eq {message : Message} (h : Returned m message m') (queue : String) :
    ∃ front back, m'.ready queue = front ++ m.ready queue ++ back ∧
      ∀ x ∈ front ++ back, Message.Again message x := by
  obtain ⟨front, back, hready, hx⟩ := h.ready queue
  cases hq : m.ready? queue with
  | none => exact ⟨[], [], by simp [Memory.ready, hready, hq], by simp⟩
  | some messages => exact ⟨front, back, by simp [Memory.ready, hready, hq], hx⟩

theorem ready_accept (publishing : Publishing) (targets : List String)
    (hq : m.queueExists queue = true) :
    (m.accept publishing targets).ready queue =
      m.ready queue ++ List.replicate (targets.count queue) (m.copy publishing) := by
  rw [← isSome_ready?, Option.isSome_iff_exists] at hq
  obtain ⟨messages, hq⟩ := hq
  simp [ready, ready?_accept, hq]

/-! ## What lasts -/

/-- A broker has kept its topology, its streams, and its deliveries with their messages. -/
structure Keeps (m m' : Memory) : Prop where
  exchanges : ∀ name kind, m.exchangeKind name = some kind → m'.exchangeKind name = some kind
  bindings : ∀ b ∈ m.bindings, b ∈ m'.bindings
  queues : ∀ name, m.queueExists name = true → m'.queueExists name = true
  streams : ∀ (i : StreamId) (s : Stream), m.streams[i]? = some s → m'.streams[i]? = some s
  deliveries : ∀ (i : DeliveryId) (d : Delivery), m.deliveries[i]? = some d →
    ∃ d', m'.deliveries[i]? = some d' ∧ d'.message = d.message
  lastMessageId : m.lastMessageId ≤ m'.lastMessageId

theorem Keeps.of_eq (he : m'.exchanges = m.exchanges) (hb : m'.bindings = m.bindings)
    (hq : ∀ name, m.queueExists name = true → m'.queueExists name = true)
    (hs : m'.streams = m.streams) (hd : m'.deliveries = m.deliveries)
    (hl : m.lastMessageId ≤ m'.lastMessageId) : Keeps m m' where
  exchanges name kind h := by rwa [exchangeKind, he]
  bindings b h := hb ▸ h
  queues := hq
  streams i s h := hs ▸ h
  deliveries i d h := ⟨d, hd ▸ h, rfl⟩
  lastMessageId := hl

theorem Keeps.refl (m : Memory) : Keeps m m :=
  .of_eq rfl rfl (fun _ h => h) rfl rfl (Nat.le_refl _)

theorem Keeps.trans (h₁ : Keeps m₁ m₂) (h₂ : Keeps m₂ m₃) : Keeps m₁ m₃ where
  exchanges name kind h := h₂.exchanges name kind (h₁.exchanges name kind h)
  bindings b h := h₂.bindings b (h₁.bindings b h)
  queues name h := h₂.queues name (h₁.queues name h)
  streams i s h := h₂.streams i s (h₁.streams i s h)
  deliveries i d h := by
    obtain ⟨d', hd', e'⟩ := h₁.deliveries i d h
    obtain ⟨d'', hd'', e''⟩ := h₂.deliveries i d' hd'
    exact ⟨d'', hd'', e''.trans e'⟩
  lastMessageId := Nat.le_trans h₁.lastMessageId h₂.lastMessageId

/-- Queues and wake-ups are all that has changed. -/
theorem Keeps.of_frame (h : m'.frame = m.frame)
    (hq : ∀ name, (m'.ready? name).isSome = (m.ready? name).isSome) : Keeps m m' := by
  refine .of_eq ?_ ?_ (fun name hn => ?_) ?_ ?_ ?_
  · simpa using congrArg Memory.exchanges h
  · simpa using congrArg Memory.bindings h
  · rwa [← isSome_ready?, hq, isSome_ready?]
  · simpa using congrArg Memory.streams h
  · simpa using congrArg Memory.deliveries h
  · have hl : m'.lastMessageId = m.lastMessageId := by simpa using congrArg Memory.lastMessageId h
    exact Nat.le_of_eq hl.symm

theorem Same.keeps (h : Same m m') : Keeps m m' :=
  .of_frame h.frame fun name => by rw [h.ready]

theorem Returned.keeps {message : Message} (h : Returned m message m') : Keeps m m' := by
  refine .of_frame h.frame fun name => ?_
  obtain ⟨front, back, hready, -⟩ := h.ready name
  rw [hready, Option.isSome_map]

theorem lookup_append_of_some {α : Type} {entries more : List (String × α)} {name : String} {a : α}
    (h : entries.lookup name = some a) : (entries ++ more).lookup name = some a := by
  rw [List.lookup_append, h, Option.some_or]

theorem Change.keeps (h : Change m m') : Keeps m m' := by
  induction h with
  | exchange name kind hnone =>
    exact { Keeps.refl m with exchanges := fun _ _ h => lookup_append_of_some h }
  | queue declaration hnone =>
    refine { Keeps.refl m with queues := fun name h => ?_ }
    obtain ⟨q, hq⟩ := Option.isSome_iff_exists.mp h
    exact Option.isSome_iff_exists.mpr ⟨q, lookup_append_of_some hq⟩
  | binding b => exact { Keeps.refl m with bindings := fun _ h => List.mem_append_left _ h }
  | stream s channels =>
    refine { Keeps.refl m with streams := fun i s' h => ?_ }
    rw [List.getElem?_append_left (List.getElem?_eq_some_iff.mp h).1, h]
  | @settle delivery d records hd =>
    refine { Keeps.refl m with deliveries := fun i d' h => ?_ }
    by_cases hi : delivery = i
    · subst hi
      obtain rfl : d = d' := Option.some.inj (hd.symm.trans h)
      exact ⟨_, List.getElem?_set_self (List.getElem?_eq_some_iff.mp hd).1, rfl⟩
    · exact ⟨d', by rw [List.getElem?_set_ne hi, h], rfl⟩
  | wake _ hs ih => exact ih.trans hs.keeps
  | _ => exact .of_eq rfl rfl (fun _ h => h) rfl rfl (Nat.le_refl _)

theorem keeps_accept (m : Memory) (publishing : Publishing) (targets : List String) :
    Keeps m (m.accept publishing targets) := by
  have h := frame_accept m publishing targets
  refine .of_eq ?_ ?_ (fun name hn => ?_) ?_ ?_ ?_
  · simpa using congrArg Memory.exchanges h
  · simpa using congrArg Memory.bindings h
  · rwa [← isSome_ready?, ready?_accept, Option.isSome_map, isSome_ready?]
  · simpa using congrArg Memory.streams h
  · simpa using congrArg Memory.deliveries h
  · exact Nat.le_of_lt (by rw [lastMessageId_accept]; exact Nat.lt_succ_self _)

theorem Drawn.keeps (h : Drawn m m') : Keeps m m' := by
  cases h with
  | nothing hs => exact hs.keeps
  | @message queue message rest _ hready hframe hrest =>
    have hd : m'.deliveries = m.deliveries ++ [⟨queue, message, false⟩] := by
      simpa using congrArg Memory.deliveries hframe
    have hrefl : Keeps m { m' with deliveries := m.deliveries } := by
      refine .of_frame ?_ fun name => ?_
      · exact congrArg (fun f : Memory => { f with deliveries := m.deliveries }) hframe
      · show (m'.ready? name).isSome = _
        rw [hrest]
        split
        · rename_i hname
          rw [hname, hready]
          rfl
        · rfl
    refine { hrefl with deliveries := fun i d hi => ⟨d, ?_, rfl⟩ }
    rw [hd, List.getElem?_append_left (List.getElem?_eq_some_iff.mp hi).1, hi]

theorem keeps_answer (r : Transport.Request) (m : Memory) : Keeps m (answer r m).2 := by
  cases hp : r.isPublish with
  | true =>
    cases r with
    | publish channel publishing options =>
      rcases publish_cases m channel publishing options with ⟨e, n, h⟩ | ⟨targets, -, h⟩
      · simp only [answer, h]
        exact .of_eq rfl rfl (fun _ h => h) rfl rfl (Nat.le_refl _)
      · simp only [answer, h]
        exact keeps_accept m publishing targets
    | _ => cases hp
  | false =>
    cases hr : r.isRefusal with
    | false => exact (answer_change hp hr m).keeps
    | true =>
      cases r with
      | nack delivery requeue =>
        rcases nack_cases m delivery requeue with hm | ⟨d, m₁, -, hc, -, hm⟩
        · rw [hm]
          exact .refl m
        · exact hc.keeps.trans hm.keeps
      | _ => cases hr

/-! ## Where messages go -/

/-- Is there this queue, and would a message be sent to it? -/
def sendsTo (m : Memory) (queue : String) (publishing : Publishing) : Bool :=
  m.queueExists queue &&
    match m.route publishing.destination with
    | .ok targets => targets.contains queue
    | .error _ => false

theorem mem_boundQueues {kind : ExchangeKind} {destination : Destination} {bindings : List Binding} :
    queue ∈ boundQueues kind destination bindings ↔ ∃ b ∈ bindings, b.queue = queue ∧
      b.exchange = destination.exchange ∧ b.matches kind destination = true := by
  -- whatever was found before
  have found : ∀ names : List String,
      queue ∈ bindings.foldl (fun names b =>
        if b.exchange == destination.exchange && !names.contains b.queue &&
          b.matches kind destination then names ++ [b.queue] else names) names ↔
      queue ∈ names ∨ ∃ b ∈ bindings, b.queue = queue ∧ b.exchange = destination.exchange ∧
        b.matches kind destination = true := by
    induction bindings with
    | nil => simp
    | cons b bindings ih =>
      intro names
      rw [List.foldl_cons, ih]
      simp only [List.mem_cons, exists_eq_or_imp, Bool.and_eq_true, beq_iff_eq, Bool.not_eq_true',
        List.contains_eq_mem, decide_eq_false_iff_not]
      split
      · rename_i hb
        simp only [List.mem_append, List.mem_singleton, hb, and_true, or_assoc, eq_comm]
      · rename_i hb
        constructor
        · exact Or.imp_right .inr
        · rintro (h | ⟨rfl, hexchange, hmatch⟩ | h)
          · exact .inl h
          · -- this binding was passed over because its queue was among the names
            exact .inl (Decidable.byContradiction fun hnames => hb ⟨⟨hexchange, hnames⟩, hmatch⟩)
          · exact .inr h
  rw [boundQueues, found]
  simp

theorem sendsTo_iff {publishing : Publishing} :
    m.sendsTo queue publishing = true ↔ m.queueExists queue = true ∧
      (publishing.destination.exchange.isEmpty = true ∧ publishing.destination.routingKey = queue ∨
        publishing.destination.exchange.isEmpty = false ∧
          ∃ kind, m.exchangeKind publishing.destination.exchange = some kind ∧
            ∃ b ∈ m.bindings, b.queue = queue ∧ b.exchange = publishing.destination.exchange ∧
              b.matches kind publishing.destination = true) := by
  rw [sendsTo, Bool.and_eq_true]
  refine and_congr_right fun hq => ?_
  unfold route
  cases hdefault : publishing.destination.exchange.isEmpty with
  | true =>
    by_cases hkey : publishing.destination.routingKey = queue
    · simp [hkey, hq]
    · by_cases hexists : m.queueExists publishing.destination.routingKey = true <;>
        simp [hkey, hexists, Ne.symm hkey]
  | false =>
    cases hkind : m.exchangeKind publishing.destination.exchange with
    | none => simp
    | some kind => simp [mem_boundQueues, hq]

/-- What is sent to a queue goes on being sent to it. -/
theorem sendsTo_of_keeps (h : Keeps m m') {publishing : Publishing}
    (hs : m.sendsTo queue publishing = true) : m'.sendsTo queue publishing = true := by
  rw [sendsTo_iff] at hs ⊢
  obtain ⟨hq, hs⟩ := hs
  refine ⟨h.queues queue hq, hs.imp_right ?_⟩
  rintro ⟨hnamed, kind, hkind, b, hb, hmatch⟩
  exact ⟨hnamed, kind, h.exchanges _ kind hkind, b, h.bindings b hb, hmatch⟩

/-- A message that is sent to a queue and accepted is put into it. -/
theorem ready_accept_of_sendsTo {publishing : Publishing} {targets : List String}
    (hs : m.sendsTo queue publishing = true) (hroute : m.route publishing.destination = .ok targets) :
    ∃ count, (m.accept publishing targets).ready queue =
      m.ready queue ++ List.replicate (count + 1) (m.copy publishing) := by
  simp only [sendsTo, hroute, Bool.and_eq_true, List.contains_iff_mem] at hs
  obtain ⟨count, hcount⟩ := Nat.exists_eq_succ_of_ne_zero
    (Nat.ne_of_gt (List.count_pos_iff.mpr hs.2))
  exact ⟨count, by rw [ready_accept publishing targets hs.1, hcount]⟩

/-! ## Whatever befalls it -/

/-- What may befall a broker. -/
inductive Activity where
  | request (r : Transport.Request)
  | ask (stream : StreamId)
  /-- A stream looks what it has, and does not wait for a message yet. -/
  | look (stream : StreamId)
  /-- A stream that has nothing waits for a message. -/
  | lieDown (stream : StreamId)
  /-- The next publishes shall fail. -/
  | failNextPublishes (count : Nat)
  | passTime (now : Int)

def act (m : Memory) : Activity → Memory
  | .request r => (answer r m).2
  | .ask stream => (m.next stream).2
  | .look stream => (m.look stream).2
  | .lieDown stream => (m.lieDown stream).2
  | .failNextPublishes count => m.failNextPublishes count
  | .passTime now => { m with now }

/-- The stream that an activity asks, or a part of asking is of. -/
def Activity.polls? : Activity → Option StreamId
  | .ask stream => some stream
  | .look stream => some stream
  | .lieDown stream => some stream
  | _ => none

theorem drawn_act (m : Memory) {activity : Activity} {stream : StreamId}
    (h : activity.polls? = some stream) : Drawn m (m.act activity) := by
  cases activity with
  | ask id =>
    rw [act]
    cases hs : m.streams[id]? with
    | none =>
      rw [next_of_none hs]
      exact .nothing (.refl m)
    | some s => exact (next_asked hs).drawn
  | look id =>
    rw [act]
    cases hs : m.streams[id]? with
    | none =>
      rw [look_of_none hs]
      exact .nothing (.refl m)
    | some s => exact (look_asked hs).drawn
  | lieDown id => exact .nothing (same_lieDown m id)
  | request r => cases h
  | failNextPublishes count => cases h
  | passTime now => cases h

theorem keeps_act (m : Memory) (activity : Activity) : Keeps m (m.act activity) := by
  cases activity with
  | request r => exact keeps_answer r m
  | ask stream | look stream | lieDown stream => exact (drawn_act m rfl).keeps
  | failNextPublishes count => exact .of_eq rfl rfl (fun _ h => h) rfl rfl (Nat.le_refl _)
  | passTime now => exact .of_eq rfl rfl (fun _ h => h) rfl rfl (Nat.le_refl _)

/-- The log is only added to, at its end. -/
theorem published_act (m : Memory) (activity : Activity) :
    m.published <+: (m.act activity).published := by
  have hdrawn := @drawn_act m activity
  cases activity with
  | request r =>
    cases hr : r.isPublish with
    | false => exact published_answer hr m ▸ List.prefix_refl _
    | true =>
      cases r with
      | publish channel publishing options =>
        simp only [act, answer, published_publish]
        split
        · exact List.prefix_append _ _
        · exact List.prefix_refl _
      | _ => cases hr
  | ask stream | look stream | lieDown stream =>
    exact (hdrawn rfl).published ▸ List.prefix_refl _
  | failNextPublishes count => exact List.prefix_refl _
  | passTime now => exact List.prefix_refl _

/-- Messages are put into a queue or taken from it, but not both at once. -/
theorem ready_act_cases (m : Memory) (activity : Activity) (queue : String) :
    (∃ front back, (m.act activity).ready queue = front ++ m.ready queue ++ back) ∨
      ∃ message, m.ready queue = message :: (m.act activity).ready queue := by
  have same : ∀ {m'}, Change m m' → ∃ front back, m'.ready queue = front ++ m.ready queue ++ back :=
    fun h => ⟨[], [], by rw [h.ready]; simp⟩
  have hdrawn := @drawn_act m activity
  cases activity with
  | failNextPublishes count => exact .inl ⟨[], [], by simp [act]; rfl⟩
  | passTime now => exact .inl ⟨[], [], by simp [act]; rfl⟩
  | request r =>
    refine .inl ?_
    cases hp : r.isPublish with
    | true =>
      cases r with
      | publish channel publishing options =>
        rcases publish_cases m channel publishing options with ⟨e, n, h⟩ | ⟨targets, -, h⟩
        · refine ⟨[], [], ?_⟩
          simp only [act, answer, h, List.nil_append, List.append_nil]
          rfl
        · simp only [act, answer, h, ready, ready?_accept]
          cases m.ready? queue with
          | none => exact ⟨[], [], rfl⟩
          | some messages => exact ⟨[], _, by simp; rfl⟩
      | _ => cases hp
    | false =>
      cases hr : r.isRefusal with
      | false => exact same (answer_change hp hr m)
      | true =>
        cases r with
        | nack delivery requeue =>
          rcases nack_cases m delivery requeue with hm | ⟨d, m₁, -, hc, -, hm⟩
          · simp only [act, hm]
            exact ⟨[], [], by simp⟩
          · obtain ⟨front, back, hready, -⟩ := hm.ready_eq queue
            exact ⟨front, back, by simp only [act, hready, hc.ready]⟩
        | _ => cases hr
  | ask stream | look stream | lieDown stream =>
    cases hdrawn rfl with
    | nothing hs => exact .inl ⟨[], [], by simp [ready, hs.ready]⟩
    | @message name message rest _ hready _ hrest =>
      by_cases hq : queue = name
      · subst hq
        exact .inr ⟨message, by simp [ready, hready, hrest]⟩
      · exact .inl ⟨[], [], by simp [ready, hrest, hq]⟩

/-- A queue that is as long as it was has the same messages. -/
theorem ready_act {activity : Activity} (h : (m.act activity).queueLen queue = m.queueLen queue) :
    (m.act activity).ready queue = m.ready queue := by
  rw [← length_ready, ← length_ready] at h
  rcases ready_act_cases m activity queue with ⟨front, back, hready⟩ | ⟨message, hready⟩
  · have hlen := congrArg List.length hready
    simp only [List.length_append] at hlen
    have hfront : front = [] := List.eq_nil_of_length_eq_zero (by omega)
    have hback : back = [] := List.eq_nil_of_length_eq_zero (by omega)
    rw [hready, hfront, hback, List.nil_append, List.append_nil]
  · have hlen := congrArg List.length hready
    rw [List.length_cons] at hlen
    omega

end Courier.Memory
