import Courier.Consumer.Lane
import Courier.Proofs.Memory.Conservation

/-!
# What has been declared lasts

A session asks a broker for one thing after another, and anything may befall the broker in between
(`Carried`). What a request has brought about is there when the session is done if it is of a kind
that lasts whatever befalls the broker (`Lasting`, `Carried.request`). Exchanges, queues with their
declarations, and bindings are of that kind.
-/

namespace Courier.Memory

variable {m m' m'' : Memory} {queue : String}

/-! ## Declarations -/

/-- The queues with their declarations, in the order in which they were declared. -/
def declarations (m : Memory) : List (String × QueueDeclaration) :=
  m.queues.map fun (name, q) => (name, q.declaration)

theorem lookup_declarations (m : Memory) (queue : String) :
    m.declarations.lookup queue = (m.queue? queue).map (·.declaration) := by
  unfold declarations queue?
  induction m.queues with
  | nil => rfl
  | cons entry rest ih =>
    obtain ⟨name, q⟩ := entry
    rw [List.map_cons, List.lookup_cons, List.lookup_cons]
    cases queue == name with
    | true => rfl
    | false => exact ih

theorem declarations_modifyQueue (m : Memory) (name : String) {f : Queue → Queue}
    (h : ∀ q : Queue, (f q).declaration = q.declaration) :
    (m.modifyQueue name f).declarations = m.declarations := by
  rw [declarations, modifyQueue, List.map_map]
  refine List.map_congr_left fun entry _ => ?_
  obtain ⟨n, q⟩ := entry
  by_cases hn : n = name <;> simp [hn, h]

theorem declarations_notify (m : Memory) (name : String) (f : Notify → Notify × List Nat) :
    (m.notify name f).declarations = m.declarations := by
  unfold notify
  split
  · rfl
  · rename_i q _
    exact declarations_modifyQueue m name
      (f := fun q' => { q' with available := (f q.available).1 }) fun _ => rfl

theorem declarations_notifies (f : Notify → Notify × List Nat) (m : Memory) (names : List String) :
    (names.foldl (fun m name => m.notify name f) m).declarations = m.declarations := by
  induction names generalizing m with
  | nil => rfl
  | cons name names ih => rw [List.foldl_cons, ih, declarations_notify]

theorem declarations_push (m : Memory) (name : String) (message : Message) :
    (m.push name message).declarations = m.declarations := by
  rw [push, declarations_notify, declarations_modifyQueue]
  exact fun _ => rfl

theorem declarations_pushes (m : Memory) (targets : List String) (message : Message) :
    (targets.foldl (fun m target => m.push target message) m).declarations = m.declarations := by
  induction targets generalizing m with
  | nil => rfl
  | cons target targets ih => rw [List.foldl_cons, ih, declarations_push]

theorem declarations_requeue (m : Memory) (name : String) (message : Message) :
    (m.requeue name message).declarations = m.declarations := by
  rw [requeue, declarations_notify, declarations_modifyQueue]
  exact fun _ => rfl

theorem declarations_deadLetter (m : Memory) (name : String) (message : Message) :
    (m.deadLetter name message).declarations = m.declarations := by
  unfold deadLetter
  split
  · rfl
  · split
    · rfl
    · exact declarations_pushes m _ _

theorem declarations_release (m : Memory) (channel : ChannelId) :
    (m.release channel).declarations = m.declarations := by
  unfold release
  split
  · rfl
  · split
    · rfl
    · exact declarations_notifies Notify.notifyAll _ _

theorem declarations_draw (m : Memory) (s : Stream) : (m.draw s).2.declarations = m.declarations := by
  unfold draw
  split
  · rfl
  · split
    · rename_i message m' hpop
      unfold pop at hpop
      split at hpop
      · cases hpop
      · split at hpop <;> cases hpop
        rename_i rest _
        exact declarations_modifyQueue m s.queue (f := fun q => { q with messages := rest })
          fun _ => rfl
    · rfl

theorem declarations_look (m : Memory) (stream : StreamId) :
    (m.look stream).2.declarations = m.declarations := by
  unfold look
  split
  · rfl
  · rename_i s _
    split
    · rfl
    · split
      · rfl
      · refine (declarations_draw _ s).trans ?_
        split
        · exact declarations_modifyQueue m s.queue fun _ => rfl
        · rfl

theorem declarations_lieDown (m : Memory) (stream : StreamId) :
    (m.lieDown stream).2.declarations = m.declarations := by
  unfold lieDown
  split
  · rfl
  · split
    · rfl
    · split
      · rfl
      · exact declarations_modifyQueue m _ fun _ => rfl

theorem declarations_next (m : Memory) (stream : StreamId) :
    (m.next stream).2.declarations = m.declarations := by
  have hlook := declarations_look m stream
  unfold next
  split
  · rename_i m₁ hlooked
    rw [hlooked] at hlook
    have hlain := declarations_lieDown m₁ stream
    split <;> rename_i m₂ hlie <;> rw [hlie] at hlain
    · exact hlain.trans hlook
    · exact (declarations_lieDown m₂ stream).trans (hlain.trans hlook)
  · exact hlook

theorem declarations_publish (m : Memory) (channel : ChannelId) (publishing : Publishing)
    (options : PublishOptions) :
    (m.publish channel publishing options).2.declarations = m.declarations := by
  rcases publish_cases m channel publishing options with ⟨e, n, h⟩ | ⟨targets, -, h⟩
  · rw [h]
    rfl
  · rw [h]
    exact declarations_pushes _ targets _

theorem declarations_nack (m : Memory) (delivery : DeliveryId) (requeue : Bool) :
    (answer (.nack delivery requeue) m).2.declarations = m.declarations := by
  simp only [answer]
  rcases gone_or_unsettled m delivery with hgone | ⟨d, hd, hs⟩
  · rw [nack_of_gone hgone]
    rfl
  · cases requeue with
    | true =>
      rw [requeue_of_unsettled hd hs]
      exact declarations_requeue _ d.queue d.message
    | false =>
      rw [reject_of_unsettled hd hs]
      exact declarations_deadLetter _ d.queue d.message

/-- Queues are added, and their declarations stay as they are. -/
theorem declarations_answer (r : Transport.Request) (m : Memory) :
    m.declarations <+: (answer r m).2.declarations := by
  have same : ∀ {m' : Memory}, m'.declarations = m.declarations →
      m.declarations <+: m'.declarations := fun h => h ▸ List.prefix_refl _
  have onOpen : ∀ {channel : ChannelId} {result : Except TransportError Memory},
      (∀ m', result = .ok m' → m.declarations <+: m'.declarations) →
      m.declarations <+: (m.onOpen channel result).2.declarations :=
    onOpen_elim (P := fun m' => m.declarations <+: m'.declarations) (List.prefix_refl _)
  cases r with
  | openChannel => exact same rfl
  | close channel => exact same (declarations_release m channel)
  | dropChannel channel => exact same (declarations_release m channel)
  | publish channel publishing options =>
    exact same (declarations_publish m channel publishing options)
  | nack delivery requeue => exact same (declarations_nack m delivery requeue)
  | qos channel prefetch => exact onOpen fun m' hm => by cases hm; exact same rfl
  | ack delivery =>
    simp only [answer]
    rcases gone_or_unsettled m delivery with hgone | ⟨d, hd, hs⟩
    · rw [ack_of_gone hgone]
      exact same rfl
    · rw [ack_of_unsettled hd hs]
      exact same rfl
  | confirmSelect channel =>
    refine same (unchangedOnError_elim (P := fun m' => m'.declarations = m.declarations) rfl
      fun m' hm => ?_)
    obtain ⟨c, -, rfl⟩ := confirmSelect_eq_ok hm
    rfl
  | consume channel name exclusive =>
    simp only [answer, consume]
    cases m.openChannel? channel with
    | error e => exact same rfl
    | ok c => cases m.queueExists name <;> exact same rfl
  | dropStream stream =>
    simp only [answer, dropStream]
    split
    · exact same rfl
    · exact same (declarations_notify m _ _)
  | declareExchange channel name kind durable =>
    refine onOpen fun m' hm => ?_
    obtain ⟨-, rfl⟩ | ⟨-, rfl⟩ := declareExchange_eq_ok hm <;> exact same rfl
  | declareQueue channel declaration =>
    refine onOpen fun m' hm => ?_
    obtain ⟨-, rfl⟩ | ⟨-, rfl⟩ := declareQueue_eq_ok hm
    · exact same rfl
    · exact ⟨[(declaration.name, declaration)], by simp [declarations]⟩
  | bindQueue channel name exchange routingKey arguments =>
    refine onOpen fun m' hm => ?_
    obtain ⟨-, -, ⟨-, rfl⟩ | ⟨-, rfl⟩⟩ := bindQueue_eq_ok hm <;> exact same rfl

theorem declarations_act (m : Memory) (activity : Activity) :
    m.declarations <+: (m.act activity).declarations := by
  cases activity with
  | request r => exact declarations_answer r m
  | ask stream => exact declarations_next m stream ▸ List.prefix_refl _
  | look stream => exact declarations_look m stream ▸ List.prefix_refl _
  | lieDown stream => exact declarations_lieDown m stream ▸ List.prefix_refl _
  | failNextPublishes count => exact List.prefix_refl _
  | passTime now => exact List.prefix_refl _

/-! ## What lasts -/

/-- What holds once holds whatever befalls the broker. -/
def Lasting (P : Memory → Prop) : Prop :=
  ∀ m activity, P m → P (m.act activity)

theorem Lasting.after {P : Memory → Prop} (hP : Lasting P) (h : P m) (activities : List Activity) :
    P (m.after activities) := by
  induction activities generalizing m with
  | nil => exact h
  | cons activity activities ih => exact ih (hP m activity h)

theorem lasting_keeps (m : Memory) : Lasting (Keeps m) :=
  fun m' activity h => h.trans (keeps_act m' activity)

/-- Whatever befalls a broker, it keeps what it has been told. -/
theorem keeps_after (m : Memory) (activities : List Activity) : Keeps m (m.after activities) :=
  (lasting_keeps m).after (.refl m) activities

theorem lasting_exchangeKind (name : String) (kind : ExchangeKind) :
    Lasting fun m => m.exchangeKind name = some kind :=
  fun m activity h => (keeps_act m activity).exchanges name kind h

theorem lasting_queueExists (name : String) : Lasting fun m => m.queueExists name = true :=
  fun m activity h => (keeps_act m activity).queues name h

theorem lasting_binding (p : Binding → Prop) : Lasting fun m => ∃ b ∈ m.bindings, p b :=
  fun m activity ⟨b, hb, h⟩ => ⟨b, (keeps_act m activity).bindings b hb, h⟩

theorem lasting_declaration (name : String) (p : QueueDeclaration → Prop) :
    Lasting fun m => ∃ q, m.queue? name = some q ∧ p q.declaration := by
  rintro m activity ⟨q, hq, h⟩
  obtain ⟨more, hmore⟩ := declarations_act m activity
  have hlookup : (m.act activity).declarations.lookup name = some q.declaration := by
    rw [← hmore]
    refine lookup_append_of_some ?_
    rw [lookup_declarations, hq]
    rfl
  rw [lookup_declarations, Option.map_eq_some_iff] at hlookup
  obtain ⟨q', hq', e⟩ := hlookup
  exact ⟨q', hq', e ▸ h⟩

/-! ## Sessions -/

/-- A session is carried out, and other things befall the broker in between. -/
inductive Carried {α : Type} : Memory → Transport.Session α → α → Memory → Prop where
  | done (m : Memory) (a : α) : Carried m (.done a) a m
  | ask {m m' : Memory} {r : Transport.Request}
      {next : Requests.Answer r → Transport.Session α} {a : α}
      (h : Carried (answer r m).2 (next (answer r m).1) a m') : Carried m (.ask r next) a m'
  | meanwhile {m m' : Memory} {p : Transport.Session α} {a : α} (activity : Activity)
      (h : Carried (m.act activity) p a m') : Carried m p a m'

section Carried

variable {α β : Type} {p : Transport.Session α} {a : α}

/-- It may be that nothing comes in between. -/
theorem carried_run (p : Transport.Session α) (m : Memory) :
    Carried m p (p.run answer m).1 (p.run answer m).2 := by
  induction p generalizing m with
  | done a => exact .done m a
  | ask r next ih => exact .ask (ih (answer r m).1 (answer r m).2)

theorem Carried.lasting {P : Memory → Prop} (h : Carried m p a m') (hP : Lasting P) (hm : P m) :
    P m' := by
  induction h with
  | done => exact hm
  | @ask m m' r next a h ih => exact ih (hP m (.request r) hm)
  | @meanwhile m m' p a activity h ih => exact ih (hP m activity hm)

theorem Carried.bind_cases {next : α → Transport.Session β} {b : β}
    (h : Carried m (p.bind next) b m'') :
    ∃ a m', Carried m p a m' ∧ Carried m' (next a) b m'' := by
  generalize hprogram : p.bind next = program at h
  induction h generalizing p with
  | done m b =>
    cases p with
    | done a =>
      rw [Program.done_bind] at hprogram
      exact ⟨a, m, .done m a, hprogram ▸ .done m b⟩
    | ask r rest => cases hprogram
  | @ask m m'' r rest b h ih =>
    cases p with
    | done a =>
      rw [Program.done_bind] at hprogram
      exact ⟨a, m, .done m a, hprogram ▸ .ask h⟩
    | ask r' rest' =>
      cases hprogram
      obtain ⟨a, m', h₁, h₂⟩ := ih rfl
      exact ⟨a, m', .ask h₁, h₂⟩
  | meanwhile activity h ih =>
    obtain ⟨a, m', h₁, h₂⟩ := ih hprogram
    exact ⟨a, m', .meanwhile activity h₁, h₂⟩

theorem Carried.done_eq {a' : α} (h : Carried m (.done a' : Transport.Session α) a m') : a = a' := by
  generalize hprogram : (Program.done a' : Transport.Session α) = program at h
  induction h with
  | done => cases hprogram; rfl
  | ask => cases hprogram
  | meanwhile _ _ ih => exact ih hprogram

/-- What a request brings about when it is answered so is there in the end. -/
theorem Carried.request {P : Memory → Prop} {r : Transport.Request} {a : Requests.Answer r}
    (h : Carried m (Program.request r) a m') (hP : Lasting P)
    (hr : ∀ m, (answer r m).1 = a → P (answer r m).2) : P m' := by
  generalize hprogram : Program.request r = program at h
  induction h with
  | done => cases hprogram
  | ask h =>
    cases hprogram
    exact h.lasting hP (hr _ h.done_eq.symm)
  | meanwhile _ _ ih => exact ih hr hprogram

/-- Steps that were all answered with success. -/
theorem Carried.untilError {P : Memory → Prop}
    {steps : List (Transport.Session (Except TransportError Unit))}
    (h : Carried m (Consumer.untilError steps) (.ok ()) m') (hP : Lasting P)
    {step : Transport.Session (Except TransportError Unit)} (hstep : step ∈ steps)
    (hdone : ∀ m m', Carried m step (.ok ()) m' → P m') : P m' := by
  induction steps generalizing m with
  | nil => cases hstep
  | cons first rest ih =>
    obtain ⟨a, m₁, h₁, h₂⟩ := Carried.bind_cases h
    cases a with
    | error e => cases h₂.done_eq
    | ok =>
      rcases List.mem_cons.mp hstep with rfl | hstep
      · exact h₂.lasting hP (hdone m m₁ h₁)
      · exact ih h₂ hstep

end Carried

end Courier.Memory
