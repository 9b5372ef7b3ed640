import Courier.Proofs.Memory.Declaring

/-!
# Where rejected messages go

A consumer that wants dead letters declares an exchange for them, a queue, and a binding between the
two whose pattern is the key under which the letters travel. The key is used as a pattern and as a
key, and every key but the empty one matches itself (`topicMatches_self`). So a message that the
consumer rejects is put into the queue once, as long as the exchange has a name and the key is not
empty (`rejected_kept`). The default exchange looks at no binding, and routes to the queue whose name
is the key.
-/

namespace Courier

namespace Memory

/-! ## A key as its own pattern -/

theorem wordsMatch_self (words : List (List Char)) : wordsMatch words words = true := by
  induction words with
  | nil => rfl
  | cons word rest ih =>
    unfold wordsMatch
    split
    · contradiction
    · rename_i hwords
      cases hwords
      exact (anySuffix_eq_true_iff _ _).mpr ⟨_, List.suffix_cons _ _, ih⟩
    · rename_i hwords
      cases hwords
      exact ih
    · rename_i hwords
      cases hwords
      show (word == word && wordsMatch rest rest) = true
      rw [beq_self_eq_true, Bool.true_and, ih]

/-- Every key matches itself but the empty one, which has no words as a key. -/
theorem topicMatches_self {key : String} (h : key ≠ "") : topicMatches key key = true := by
  have hne : key.toList.isEmpty = false := by
    rw [List.isEmpty_eq_false_iff]
    exact fun e => h (String.toList_inj.mp e)
  rw [topicMatches, patternWords, keyWords, hne]
  exact wordsMatch_self _

theorem boundQueues_nodup (kind : ExchangeKind) (destination : Destination)
    (bindings : List Binding) : (boundQueues kind destination bindings).Nodup := by
  -- no name is put among the names twice
  have found : ∀ names : List String, names.Nodup → (bindings.foldl (fun names b =>
      if b.exchange == destination.exchange && !names.contains b.queue && b.matches kind destination
      then names ++ [b.queue] else names) names).Nodup := by
    induction bindings with
    | nil => exact fun names h => h
    | cons b bindings ih =>
      intro names h
      rw [List.foldl_cons]
      refine ih _ ?_
      split
      · rename_i hb
        simp only [Bool.and_eq_true, Bool.not_eq_true', List.contains_eq_mem,
          decide_eq_false_iff_not] at hb
        refine List.nodup_append.mpr ⟨h, List.nodup_singleton _, fun x hx y hy e => ?_⟩
        obtain rfl := List.mem_singleton.mp hy
        exact hb.1.2 (e ▸ hx)
      · exact h
  exact found [] .nil

/-! ## Arguments -/

theorem text?_of_beq {a b : Json} (h : Json.beq a b = true) : a.text? = b.text? := by
  cases a <;> cases b <;> simp only [Json.beq, Bool.false_eq_true, beq_iff_eq] at h <;>
    simp only [Json.text?]
  exact congrArg some h

/-- Arguments that are the same say the same of each key. -/
theorem text?_of_sameArguments {a b : Headers} (h : sameArguments a b = true) (key : String) :
    (a.get? key).bind Json.text? = (b.get? key).bind Json.text? := by
  have members : ∀ a b : List (String × Json), Json.beqMembers a b = true →
      (a.lookup key).bind Json.text? = (b.lookup key).bind Json.text? := by
    intro a
    induction a with
    | nil =>
      intro b h
      cases b with
      | nil => rfl
      | cons => simp [Json.beqMembers] at h
    | cons entry rest ih =>
      intro b h
      cases b with
      | nil => simp [Json.beqMembers] at h
      | cons entry' rest' =>
        simp only [Json.beqMembers, Bool.and_eq_true, beq_iff_eq] at h
        rw [List.lookup_cons, List.lookup_cons, h.1.1]
        cases key == entry'.1 with
        | true => exact text?_of_beq h.1.2
        | false => exact ih rest' h.2
  exact members a b h

end Memory

namespace Consumer

open Memory
open Transport (Session)

variable {config : ConsumerConfig} {exchange : String} {channel : ChannelId} {m m' m₀ : Memory}

theorem queueArguments_eq (h : config.deadLetterExchange = some exchange) :
    queueArguments config = [("x-dead-letter-exchange", .text exchange),
      ("x-dead-letter-routing-key", .text config.deadLetterKey)] := by
  have hlt : ¬ ("x-dead-letter-routing-key" : String) < "x-dead-letter-exchange" := by
    decide +kernel
  have hne : ¬ ("x-dead-letter-routing-key" : String) = "x-dead-letter-exchange" := by
    decide +kernel
  rw [queueArguments, h]
  show Json.Object.insert "x-dead-letter-routing-key" (.text config.deadLetterKey)
    [("x-dead-letter-exchange", .text exchange)] = _
  rw [Json.Object.insert, if_neg hlt, if_neg hne]
  rfl

theorem sameArguments_queueArguments (h : config.deadLetterExchange = some exchange) :
    sameArguments (queueArguments config) (queueArguments config) = true := by
  rw [queueArguments_eq h]
  show Json.beqMembers _ _ = true
  simp only [Json.beqMembers, Json.beq, beq_self_eq_true, Bool.and_self]

/-- Where the rejected messages of the consumer are routed. -/
def deadLetterDestination (config : ConsumerConfig) (exchange : String) (message : Message) :
    Destination where
  exchange := exchange
  routingKey := config.deadLetterKey
  headers := message.info.headers

theorem deadLetterDestination_of_same {q : Queue} (h : config.deadLetterExchange = some exchange)
    (hsame : sameArguments q.declaration.arguments (queueArguments config) = true)
    (message : Message) :
    q.deadLetterDestination message = some (deadLetterDestination config exchange message) := by
  have hexchange := text?_of_sameArguments hsame "x-dead-letter-exchange"
  have hkey := text?_of_sameArguments hsame "x-dead-letter-routing-key"
  rw [queueArguments_eq h] at hexchange hkey
  rw [Queue.deadLetterDestination, hexchange, hkey]
  rfl

/-! ## What the declaration leaves -/

/-- The broker has what the dead letters of a consumer need. -/
structure Arranged (config : ConsumerConfig) (exchange : String) (m : Memory) : Prop where
  topic : m.exchangeKind exchange = some .topic
  deadLetters : m.queueExists config.deadLetterQueue = true
  binding : ∃ b ∈ m.bindings, b.queue = config.deadLetterQueue ∧ b.exchange = exchange ∧
    b.routingKey = config.deadLetterKey
  queue : ∃ q, m.queue? config.queue = some q ∧
    sameArguments q.declaration.arguments (queueArguments config) = true

theorem lasting_arranged (config : ConsumerConfig) (exchange : String) :
    Lasting (Arranged config exchange) := fun m activity h => {
  topic := lasting_exchangeKind exchange .topic m activity h.topic
  deadLetters := lasting_queueExists config.deadLetterQueue m activity h.deadLetters
  binding := lasting_binding _ m activity h.binding
  queue := lasting_declaration config.queue
    (fun d => sameArguments d.arguments (queueArguments config) = true) m activity h.queue }

theorem arranged_of_declare (h : config.deadLetterExchange = some exchange)
    (hc : Carried m₀ (declare config channel) (.ok ()) m) : Arranged config exchange m := by
  have stands : ∀ d ∈ declarations config, d.Reflexive → d.Stands m :=
    fun d hd hreflexive => stands_of_declare hc hd hreflexive
  simp only [declarations, h, List.forall_mem_append, List.forall_mem_cons] at stands
  obtain ⟨⟨⟨hexchange, hdeadLetters, hbinding, -⟩, hqueue, -⟩, -⟩ := stands
  obtain ⟨q, hq, -⟩ := hdeadLetters rfl
  obtain ⟨-, -, b, hb, hequal⟩ := hbinding rfl
  obtain ⟨q', hq', -, hsame⟩ := hqueue (sameArguments_queueArguments h)
  exact ⟨hexchange trivial, Option.isSome_iff_exists.mpr ⟨q, hq⟩,
    ⟨b, hb, hequal.queue, hequal.exchange, hequal.routingKey⟩, q', hq', hsame⟩

/-! ## A rejected message -/

/-- The dead letter that a rejected message of the consumer becomes. -/
def deadLetter (config : ConsumerConfig) (exchange : String) (message : Message) : Message :=
  { message with
    info := { message.info with
      exchange
      routingKey := config.deadLetterKey } }

theorem deadLetters_eq (ha : Arranged config exchange m)
    (h : config.deadLetterExchange = some exchange) (message : Message) :
    m.deadLetters config.queue message =
      match m.route (deadLetterDestination config exchange message) with
      | .error _ => []
      | .ok targets => targets.map fun target => (target, deadLetter config exchange message) := by
  obtain ⟨q, hq, hsame⟩ := ha.queue
  rw [deadLetters, hq, Option.bind_some, deadLetterDestination_of_same h hsame]
  rfl

/-- An exchange with a name sends the dead letter to the queue for dead letters, once. -/
theorem copiesTo_deadLetterQueue (ha : Arranged config exchange m)
    (h : config.deadLetterExchange = some exchange) (hname : exchange ≠ "")
    (hkey : config.deadLetterKey ≠ "") (message : Message) :
    copiesTo config.deadLetterQueue (m.deadLetters config.queue message) =
      [deadLetter config exchange message] := by
  have hempty : (deadLetterDestination config exchange message).exchange.isEmpty = false := by
    show exchange.isEmpty = false
    simpa using hname
  have htopic : m.exchangeKind (deadLetterDestination config exchange message).exchange =
    some .topic := ha.topic
  obtain ⟨b, hb, hqueue, hexchange, hpattern⟩ := ha.binding
  have hcount : ((boundQueues .topic (deadLetterDestination config exchange message)
      m.bindings).filter m.queueExists).count config.deadLetterQueue = 1 := by
    refine List.count_eq_one_of_mem ((boundQueues_nodup _ _ _).filter _) ?_
    refine List.mem_filter.mpr ⟨mem_boundQueues.mpr ⟨b, hb, hqueue, hexchange, ?_⟩, ha.deadLetters⟩
    rw [Binding.matches, hpattern]
    exact topicMatches_self hkey
  rw [deadLetters_eq ha h]
  simp only [route, hempty, Bool.false_eq_true, if_false, htopic]
  rw [copiesTo_targets, hcount]
  rfl

/-- The default exchange sends it to the queue whose name is the key. -/
theorem copiesTo_default (ha : Arranged config "" m) (h : config.deadLetterExchange = some "")
    (message : Message) (queue : String) :
    copiesTo queue (m.deadLetters config.queue message) =
      if queue = config.deadLetterKey ∧ m.queueExists queue = true
      then [deadLetter config "" message] else [] := by
  have hempty : (deadLetterDestination config "" message).exchange.isEmpty = true := rfl
  have hroutingKey : (deadLetterDestination config "" message).routingKey = config.deadLetterKey := rfl
  rw [deadLetters_eq ha h]
  simp only [route, hempty, hroutingKey, if_true]
  by_cases hkey : queue = config.deadLetterKey
  · subst hkey
    cases m.queueExists config.deadLetterKey <;> simp [copiesTo]
  · cases m.queueExists config.deadLetterKey <;> simp [copiesTo, hkey, Ne.symm hkey]

/-- A message that is rejected after its consumer has declared what it needs is put into the queue for
dead letters, once, if the exchange has a name and the key is not empty. The default exchange puts it
into the queue named by the key, if there is one. -/
theorem rejected_kept (h : config.deadLetterExchange = some exchange)
    (hdeclared : Carried m₀ (declare config channel) (.ok ()) m) (activities : List Activity)
    {delivery : DeliveryId} {d : Delivery}
    (hd : (m.after activities).deliveries[delivery]? = some d) (hqueue : d.queue = config.queue)
    (hs : d.settled = false) :
    ∃ m', answer (.nack delivery false) (m.after activities) = (.ok (), m') ∧
      (exchange ≠ "" → config.deadLetterKey ≠ "" →
        m'.ready config.deadLetterQueue = (m.after activities).ready config.deadLetterQueue ++
          [deadLetter config exchange d.message]) ∧
      (exchange = "" → ∀ queue, m'.ready queue = (m.after activities).ready queue ++
        if queue = config.deadLetterKey ∧ (m.after activities).queueExists queue = true
        then [deadLetter config exchange d.message] else []) := by
  have ha := (lasting_arranged config exchange).after (arranged_of_declare h hdeclared) activities
  refine ⟨((m.after activities).settledAs delivery d (.nack false)).deadLetter d.queue d.message,
    by rw [answer, reject_of_unsettled hd hs]; rfl, fun hname hkey => ?_, ?_⟩
  · rw [ready_deadLetter, hqueue]
    exact congrArg _ (copiesTo_deadLetterQueue ha h hname hkey d.message)
  · rintro rfl queue
    rw [ready_deadLetter, hqueue]
    exact congrArg _ (copiesTo_default ha h d.message queue)

/-- A consumer has declared what it needs on a channel, and nothing came in between. -/
def declared (config : ConsumerConfig) : Memory :=
  ((declare config 0).run answer (answer .openChannel {}).2).2

/-- A message is published to the queue of the consumer and delivered. -/
def handOut (config : ConsumerConfig) : List Activity :=
  [.request (.publish 0 ⟨{ routingKey := config.queue }, []⟩ {}),
    .request (.consume 0 config.queue false), .ask 0]

/-- Dead letters travel under a key that has wildcards as its words. -/
def starred : ConsumerConfig :=
  { queue := "jobs", deadLetterExchange := some "dlx", deadLetterRoutingKey := some "*.#" }

theorem rejected_kept_starred :
    ∃ d m', ((declared starred).after (handOut starred)).deliveries[0]? = some d ∧
      d.queue = "jobs" ∧ d.settled = false ∧
      answer (.nack 0 false) ((declared starred).after (handOut starred)) = (.ok (), m') ∧
      m'.ready "jobs.dlq" = ((declared starred).after (handOut starred)).ready "jobs.dlq" ++
        [deadLetter starred "dlx" d.message] := by
  have hrun := carried_run (declare starred 0) (answer .openChannel {}).2
  have hok : ((declare starred 0).run answer (answer .openChannel {}).2).1 = .ok () := by rfl
  rw [hok] at hrun
  obtain ⟨d, hd, hqueue, hs⟩ : ∃ d,
      ((declared starred).after (handOut starred)).deliveries[0]? = some d ∧
      d.queue = starred.queue ∧ d.settled = false := ⟨_, rfl, rfl, rfl⟩
  obtain ⟨m', hanswer, hkept, -⟩ := rejected_kept rfl hrun (handOut starred) hd hqueue hs
  exact ⟨d, m', hd, hqueue, hs, hanswer, hkept (by decide) (by decide)⟩

/-- Dead letters go to the default exchange under the name of another queue. -/
def unnamed : ConsumerConfig :=
  { queue := "jobs", deadLetterExchange := some "", deadLetterRoutingKey := some "elsewhere" }

/-- Dead letters travel under the empty key. -/
def keyless : ConsumerConfig :=
  { queue := "jobs", deadLetterExchange := some "dlx", deadLetterRoutingKey := some "" }

/-- The message that is handed out is rejected, and does not get into the queue for dead letters. -/
structure Astray (config : ConsumerConfig) : Prop where
  declared : Carried (answer .openChannel {}).2 (declare config 0) (.ok ()) (Consumer.declared config)
  taken : ((Consumer.declared config).after (handOut config)).deliveries.map
    (fun d => (d.queue, d.settled)) = [(config.queue, false)]
  rejected : (answer (.nack 0 false) ((Consumer.declared config).after (handOut config))).1 = .ok ()
  lost : (answer (.nack 0 false) ((Consumer.declared config).after (handOut config))).2.ready
    config.deadLetterQueue = []

/-- A message goes astray on its way to the default exchange under the name of another queue, and to
an exchange with a name under the empty key. -/
theorem rejected_astray : Astray unnamed ∧ Astray keyless where
  left :=
    { declared := carried_run (declare unnamed 0) (answer .openChannel {}).2
      taken := by decide +kernel
      rejected := by rfl
      lost := by decide +kernel }
  right :=
    { declared := carried_run (declare keyless 0) (answer .openChannel {}).2
      taken := by decide +kernel
      rejected := by rfl
      lost := by decide +kernel }

end Consumer

end Courier
