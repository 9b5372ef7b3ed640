import Courier.Proofs.Memory.Account
import Mathlib.Data.List.Nodup

/-!
# No copy is lost or made

Each copy of a message that was put into a queue, by a publish or as a dead letter, is in one place:
it is ready, or it has been delivered and not settled, or it was acknowledged or rejected. Putting a
message back moves it from a delivery to the front of its queue. `Balanced` is the equation with what
keeps it, `Balanced.step` is one activity, and `conserved_after` says what follows for whoever uses
the broker.
-/

namespace Courier.Memory

variable {m m' : Memory} {a a' : Account} {queue : String}

/-! ## Deliveries that are not settled -/

/-- The messages of a queue that have been delivered and not settled. -/
def unsettled (m : Memory) (queue : String) : List Message :=
  (m.deliveries.filter fun d => d.queue == queue && !d.settled).map (·.message)

theorem Untouched.unsettled (hu : Untouched m m') (queue : String) :
    m'.unsettled queue = m.unsettled queue := by
  rw [Memory.unsettled, hu.deliveries, Memory.unsettled]

theorem unsettled_deliver (m : Memory) (name : String) (message : Message) (queue : String) :
    unsettled { m with deliveries := m.deliveries ++ [⟨name, message, false⟩] } queue =
      m.unsettled queue ++ if name = queue then [message] else [] := by
  simp only [unsettled, List.filter_append, List.map_append, List.filter_cons, List.filter_nil]
  by_cases h : name = queue <;> simp [h]

/-- To settle a delivery changes it in its place. -/
theorem settledAs_split {delivery : DeliveryId} {d : Delivery}
    (hd : m.deliveries[delivery]? = some d) (outcome : Outcome) :
    ∃ before after, m.deliveries = before ++ d :: after ∧
      (m.settledAs delivery d outcome).deliveries =
        before ++ { d with settled := true } :: after := by
  obtain ⟨hlt, hget⟩ := List.getElem?_eq_some_iff.mp hd
  obtain ⟨before, after, hsplit, -, hset⟩ : ∃ before after,
      m.deliveries = before ++ m.deliveries[delivery] :: after ∧ before.length = delivery ∧
      m.deliveries.set delivery { d with settled := true } =
        before ++ { d with settled := true } :: after := List.exists_of_set hlt
  exact ⟨before, after, hget ▸ hsplit, hset⟩

/-- A delivery that is settled is no longer among them. -/
theorem unsettled_settledAs {delivery : DeliveryId} {d : Delivery}
    (hd : m.deliveries[delivery]? = some d) (hs : d.settled = false) (outcome : Outcome)
    (queue : String) :
    (m.unsettled queue).Perm
      ((if d.queue = queue then [d.message] else []) ++
        (m.settledAs delivery d outcome).unsettled queue) := by
  obtain ⟨before, after, hsplit, hsettled⟩ := settledAs_split hd outcome
  rw [unsettled, unsettled, hsettled, hsplit]
  simp only [List.filter_append, List.map_append, List.filter_cons, hs, Bool.not_false,
    Bool.and_true, Bool.not_true, Bool.and_false, Bool.false_eq_true, if_false]
  by_cases h : d.queue = queue
  · simp only [h, beq_self_eq_true, if_true, List.map_cons]
    exact List.perm_middle
  · simp [h]

theorem consumed_append (a : Account) (s : Settlement) (sent : List (String × Message))
    (queue : String) :
    Account.consumed ⟨sent, a.settled ++ [s]⟩ queue =
      a.consumed queue ++ if s.queue = queue ∧ s.consumes = true then [s.message] else [] := by
  simp only [Account.consumed, List.filter_append, List.map_append, List.filter_cons,
    List.filter_nil, Bool.and_eq_true, beq_iff_eq]
  by_cases h : s.queue = queue ∧ s.consumes = true
  · rw [if_pos h, if_pos h]
    rfl
  · rw [if_neg h, if_neg h]
    rfl

/-! ## The balance -/

/-- The copies of messages that an account knows of are where they should be. -/
structure Balanced (m : Memory) (a : Account) : Prop where
  copies : ∀ queue, (copiesTo queue a.sent).Perm
    (m.ready queue ++ m.unsettled queue ++ a.consumed queue)
  known : ∀ d ∈ m.deliveries, m.queueExists d.queue = true
  intact : ∀ d ∈ m.deliveries, (d.queue, d.message) ∈ a.sent
  once : (a.settled.map (·.delivery)).Nodup
  settled : ∀ s ∈ a.settled, m.deliveries[s.delivery]? = some ⟨s.queue, s.message, true⟩
  flagged : ∀ i d, m.deliveries[i]? = some d → d.settled = true → i ∈ a.settled.map (·.delivery)
  records : m.acknowledgements = a.settled.map Settlement.record

theorem balanced_empty : Balanced {} {} where
  copies _ := .nil
  known _ h := by cases h
  intact _ h := by cases h
  once := .nil
  settled _ h := by cases h
  flagged _ _ h := by simp at h
  records := rfl

/-- The equation, in each of the four cases. -/
theorem Balanced.copies_entered (hb : Balanced m a) (he : Entered m a m' a') (queue : String) :
    (copiesTo queue a'.sent).Perm (m'.ready queue ++ m'.unsettled queue ++ a'.consumed queue) := by
  classical
  refine List.perm_iff_count.mpr fun x => ?_
  have hbefore := List.perm_iff_count.mp (hb.copies queue) x
  simp only [List.count_append] at hbefore ⊢
  cases he with
  | idle hready hu => rw [hready, hu.unsettled, hbefore]
  | sent copies hready hu =>
    have hconsumed : Account.consumed ⟨a.sent ++ copies, a.settled⟩ queue = a.consumed queue := rfl
    rw [copiesTo_append, hready, hu.unsettled, hconsumed, List.count_append, List.count_append]
    omega
  | @taken name message hexists hname hother hu =>
    rw [hu.unsettled, unsettled_deliver, List.count_append]
    by_cases h : name = queue
    · subst h
      rw [hname, List.count_cons] at hbefore
      rw [if_pos rfl, List.count_singleton]
      omega
    · rw [if_neg h, hother queue (Ne.symm h), List.count_nil]
      omega
  | @settled delivery d outcome copies hd hs hready hu =>
    have hunsettled := List.perm_iff_count.mp (unsettled_settledAs hd hs outcome queue) x
    rw [List.count_append] at hunsettled
    rw [copiesTo_append, hready, hu.unsettled, consumed_append]
    simp only [List.count_append]
    -- the message goes to the front of the queue or among the consumed ones, by the outcome
    by_cases hq : d.queue = queue
    · subst hq
      by_cases ho : outcome = .nack true <;> simp [Settlement.consumes, ho] at hunsettled ⊢ <;> omega
    · simp [hq, Ne.symm hq] at hunsettled ⊢
      omega

section Settled

variable {delivery : DeliveryId} {d : Delivery}

/-- A delivery that is settled keeps its queue and its message. -/
theorem exists_of_mem_settledAs (hd : m.deliveries[delivery]? = some d) {outcome : Outcome}
    {d' : Delivery} (hd' : d' ∈ (m.settledAs delivery d outcome).deliveries) :
    ∃ before ∈ m.deliveries, d'.queue = before.queue ∧ d'.message = before.message := by
  rcases List.mem_or_eq_of_mem_set hd' with hd' | rfl
  · exact ⟨d', hd', rfl, rfl⟩
  · exact ⟨d, List.mem_of_getElem? hd, rfl, rfl⟩

theorem getElem?_settledAs_self (hd : m.deliveries[delivery]? = some d) (outcome : Outcome) :
    (m.settledAs delivery d outcome).deliveries[delivery]? = some { d with settled := true } :=
  List.getElem?_set_self (List.getElem?_eq_some_iff.mp hd).1

theorem getElem?_settledAs_of_ne {i : DeliveryId} (hne : delivery ≠ i) (outcome : Outcome) :
    (m.settledAs delivery d outcome).deliveries[i]? = m.deliveries[i]? :=
  List.getElem?_set_ne hne

/-- It has not been settled before. -/
theorem Balanced.not_mem_settled (hb : Balanced m a) (hd : m.deliveries[delivery]? = some d)
    (hs : d.settled = false) : delivery ∉ a.settled.map (·.delivery) := by
  intro hin
  obtain ⟨s, hmem, rfl⟩ := List.mem_map.mp hin
  obtain rfl := Option.some.inj ((hb.settled s hmem).symm.trans hd)
  cases hs

end Settled

theorem Balanced.enter (hb : Balanced m a) (he : Entered m a m' a') (hk : Keeps m m') :
    Balanced m' a' := by
  have copies := hb.copies_entered he
  have ⟨hcopies, hknown, hintact, honce, hsettled, hflagged, hrecords⟩ := hb
  have known : ∀ d ∈ m.deliveries, m'.queueExists d.queue = true :=
    fun d hd => hk.queues d.queue (hknown d hd)
  cases he with
  | idle hready hu =>
    exact ⟨copies, hu.deliveries ▸ known, hu.deliveries ▸ hintact, honce, hu.deliveries ▸ hsettled,
      hu.deliveries ▸ hflagged, hu.acknowledgements.trans hrecords⟩
  | sent more hready hu =>
    exact ⟨copies, hu.deliveries ▸ known,
      hu.deliveries ▸ fun d hd => List.mem_append_left more (hintact d hd), honce,
      hu.deliveries ▸ hsettled, hu.deliveries ▸ hflagged, hu.acknowledgements.trans hrecords⟩
  | @taken name message hexists hname hother hu =>
    have hdeliveries : m'.deliveries = m.deliveries ++ [⟨name, message, false⟩] := hu.deliveries
    refine ⟨copies, ?_, ?_, honce, ?_, ?_, hu.acknowledgements.trans hrecords⟩
    · rw [hdeliveries]
      exact List.forall_mem_append.mpr ⟨known, List.forall_mem_singleton.mpr (hk.queues name hexists)⟩
    · rw [hdeliveries]
      refine List.forall_mem_append.mpr ⟨hintact, List.forall_mem_singleton.mpr ?_⟩
      -- what is delivered was ready
      refine mem_copiesTo.mp ((hcopies name).mem_iff.mpr ?_)
      rw [hname]
      simp
    · intro s hs
      have hlookup := hsettled s hs
      rw [hdeliveries, List.getElem?_append_left (List.getElem?_eq_some_iff.mp hlookup).1, hlookup]
    · intro i d hd hflag
      rw [hdeliveries, List.getElem?_append] at hd
      split at hd
      · exact hflagged i d hd hflag
      · rw [List.getElem?_singleton] at hd
        split at hd <;> cases hd
        cases hflag
  | @settled delivery d outcome more hd hs hready hu =>
    have hnew := hb.not_mem_settled hd hs
    refine ⟨copies, ?_, ?_, ?_, ?_, ?_, ?_⟩
    · intro d' hd'
      obtain ⟨before, hmem, hqueue, -⟩ := exists_of_mem_settledAs hd (hu.deliveries ▸ hd')
      exact hqueue ▸ known before hmem
    · intro d' hd'
      obtain ⟨before, hmem, hqueue, hmessage⟩ := exists_of_mem_settledAs hd (hu.deliveries ▸ hd')
      exact List.mem_append_left more (hqueue ▸ hmessage ▸ hintact before hmem)
    · rw [List.map_append]
      exact List.nodup_append'.mpr ⟨honce, List.nodup_singleton _, by simpa using hnew⟩
    · rw [hu.deliveries]
      refine List.forall_mem_append.mpr ⟨fun s hmem => ?_, List.forall_mem_singleton.mpr
        (getElem?_settledAs_self hd outcome)⟩
      have hne : delivery ≠ s.delivery := fun e => hnew (e ▸ List.mem_map_of_mem hmem)
      rw [getElem?_settledAs_of_ne hne, hsettled s hmem]
    · intro i d' hd' hflag
      rw [List.map_append, List.mem_append]
      by_cases hi : delivery = i
      · exact .inr (by simp [hi])
      · rw [hu.deliveries, getElem?_settledAs_of_ne hi] at hd'
        exact .inl (hflagged i d' hd' hflag)
    · rw [hu.acknowledgements, List.map_append, ← hrecords]
      rfl

theorem Balanced.step (hb : Balanced m a) (activity : Activity) :
    Balanced (m.act activity) (a.note m activity) :=
  hb.enter (entered hb.known a activity) (keeps_act m activity)

/-! ## All activities -/

/-- What has become of a broker after activities. -/
def after (m : Memory) (activities : List Activity) : Memory :=
  activities.foldl act m

theorem Balanced.after (hb : Balanced m a) (activities : List Activity) :
    Balanced (m.after activities) (a.noteAll m activities) := by
  induction activities generalizing m a with
  | nil => exact hb
  | cons activity activities ih => exact ih (hb.step activity)

/-- What the users of a broker can rely on. -/
structure Conserved (m : Memory) (a : Account) : Prop where
  /-- Each copy that was put into a queue is ready, or delivered and not settled, or consumed. -/
  copies : ∀ queue, (copiesTo queue a.sent).Perm
    (m.ready queue ++ m.unsettled queue ++ a.consumed queue)
  /-- What is delivered, the first time or again, is a copy as it was put into the queue. -/
  intact : ∀ d ∈ m.deliveries, (d.queue, d.message) ∈ a.sent
  /-- The settled deliveries are those that were acknowledged or refused with success. -/
  settled : ∀ i d, m.deliveries[i]? = some d →
    (d.settled = true ↔ ∃ s ∈ a.settled, s.delivery = i ∧ s.queue = d.queue ∧ s.message = d.message)
  /-- No delivery is settled twice, and each settlement is written down once. -/
  once : (a.settled.map (·.delivery)).Nodup ∧
    m.acknowledgements = a.settled.map Settlement.record
  /-- To settle a delivery again fails and changes nothing. -/
  again : ∀ s ∈ a.settled, ∃ text,
    answer (.ack s.delivery) m = (.error (.settle text), m) ∧
    ∀ requeue, answer (.nack s.delivery requeue) m = (.error (.settle text), m)

theorem Balanced.conserved (hb : Balanced m a) : Conserved m a := by
  refine ⟨hb.copies, hb.intact, fun i d hd => ⟨fun hflag => ?_, ?_⟩, ⟨hb.once, hb.records⟩,
    fun s hs => ?_⟩
  · obtain ⟨s, hs, rfl⟩ := List.mem_map.mp (hb.flagged i d hd hflag)
    obtain rfl := Option.some.inj ((hb.settled s hs).symm.trans hd)
    exact ⟨s, hs, rfl, rfl, rfl⟩
  · rintro ⟨s, hs, rfl, -, -⟩
    obtain rfl := Option.some.inj ((hb.settled s hs).symm.trans hd)
    rfl
  · have hgone : m.Gone s.delivery := fun d hd => by
      obtain rfl := Option.some.inj ((hb.settled s hs).symm.trans hd)
      rfl
    refine ⟨"delivery already settled", ?_, fun requeue => ?_⟩
    · rw [answer, ack_of_gone hgone]
      rfl
    · rw [answer, nack_of_gone hgone]
      rfl

/-- Whatever befalls a broker, no copy of a message is lost or made inside it. -/
theorem conserved_after (activities : List Activity) :
    Conserved (({} : Memory).after activities) (Account.noteAll {} {} activities) :=
  (balanced_empty.after activities).conserved

/-- A message that is put back and then rejected counts once in its queue and once in the other. -/
example : let activities : List Activity :=
    [.request .openChannel, .request (.declareQueue 0 { name := "dead" }),
      .request (.declareQueue 0 { name := "jobs", arguments :=
        [("x-dead-letter-exchange", .text ""), ("x-dead-letter-routing-key", .text "dead")] }),
      .request (.publish 0 ⟨{ routingKey := "jobs" }, []⟩ {}), .request (.consume 0 "jobs" false),
      .ask 0, .request (.nack 0 true), .ask 0, .request (.nack 1 false), .request (.nack 1 true)]
    let a := Account.noteAll {} {} activities
    (a.sent.map (·.1), a.settled.map (·.outcome)) =
      (["jobs", "dead"], [.nack true, .nack false]) := by decide +kernel

end Courier.Memory
