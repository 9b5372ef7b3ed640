import Courier.Proofs.Consumer.Polling

/-!
# Which messages are left lying

A lane that has found its queue empty lies down only afterwards. If nothing can go on by itself, and
only lanes read a queue that has a ready message, then no lane of the queue waits for one: each has
ended, or is in its handler. That holds unless the queue was `Deprived` once: two messages came for it
while two lanes had found it empty and had not lain down, so that one wake-up was kept for both, and
one of the lanes took it (`unstranded_after`). The other may then sleep beside the second message
(`not_unstranded`).

As long as that has not happened, someone is under way to each ready message while a lane sleeps or is
about to (`Covered`): one who has a wake-up, or one who has taken the wake-up that was kept and looks
again. He can go on (`Good.handed`, `Good.awake`).
-/

namespace Courier.Serving

variable {s : System} {j : Nat} {lane : Worker} {place : Place} {queue : String}
  {stream : StreamId}

/-- The lane has stopped, or is in its handler, which may keep it as long as it likes. -/
def Worker.Occupied (lane : Worker) : Prop :=
  lane.finished = true ∨ lane.handling = true

/-- No lane can go on by itself. -/
def Quiet (s : System) : Prop :=
  ∀ j ∈ s.ready, ∀ lane, s.lanes[j]? = some lane → lane.Occupied

/-- The run has returned, or waits for its lanes. -/
def Run.waits (run : Run) (s : System) (i : Nat) : Bool :=
  match run.rest with
  | .done _ => true
  | .ask (.join _) _ => (s.join i run).isNone
  | _ => false

/-- Nobody can go on by himself, neither a lane nor a run. -/
def Still (s : System) : Prop :=
  Quiet s ∧ ∀ (i : Nat) (run : Run), s.runs[i]? = some run → run.waits s i = true

/-- Who listens to a stream is not in its handler and has not ended. -/
theorem LaneGood.not_occupied (h : LaneGood s j lane place) (hlistens : place.listening? = some stream) :
    ¬lane.Occupied := by
  rintro (hfinished | hhandling)
  · rw [h.ended hfinished] at hlistens
    cases hlistens
  · have hobeys := h.obeys
    unfold Worker.handling at hhandling
    split at hhandling
    · rename_i r next hrest
      rw [hrest] at hobeys
      -- only a lane that holds a delivery asks for something of its handler
      obtain ⟨a, place', hm⟩ := hobeys.allowed
      cases hm with
      | handled => cases hlistens
    · cases hhandling

/-- The lane that a wake-up is for can go on. -/
theorem Good.handed (h : Good none s) (honly : LanesOnly s.broker s.maker queue)
    (hhanded : stream ∈ (s.broker.waiters queue).handed) :
    ∃ j lane, s.maker (.stream stream) = some (.lane j) ∧ s.lanes[j]? = some lane ∧ j ∈ s.ready ∧
      ¬lane.Occupied := by
  have hknown : stream ∈ (s.broker.waiters queue).known :=
    List.mem_append_right _ (List.mem_append_left _ hhanded)
  obtain ⟨found, hget, hqueue⟩ := h.sane.placed queue stream hknown
  obtain ⟨j, hmine⟩ := honly stream found hget hqueue
  have hlt : j < s.lanes.length := h.owners _ _ hmine
  obtain ⟨place, hgood⟩ := h.lane j _ (List.getElem?_eq_getElem hlt) nofun
  have hlistens := hgood.has.known stream queue hmine hknown
  have hbusy := hgood.not_occupied hlistens
  refine ⟨j, _, hmine, List.getElem?_eq_getElem hlt, ?_, hbusy⟩
  rcases hgood.settled with hready | hfinished | ⟨c, stream', rfl, hsleeps⟩
  · exact hready
  · exact absurd (.inl hfinished) hbusy
  · -- nobody sleeps and is woken at the same time
    obtain rfl := Option.some.inj hlistens
    obtain ⟨-, c', -, hget'⟩ := hgood.has.stream stream' rfl
    obtain rfl := Option.some.inj (hget'.symm.trans hget)
    cases hqueue
    have hnodup := h.sane.nodup s.lanes[j].queue
    exact absurd rfl ((List.nodup_append.mp hnodup).2.2 stream' hsleeps stream'
      (List.mem_append_left _ hhanded))

end Courier.Serving

namespace Courier.Polling

open Serving (Aside Befell LanesOnly Quiet Still Worker)

variable {s s' : System} {e : Serving.Event} {events : List Serving.Event} {j k : Nat} {lane : Worker}
  {queue name : String} {stream : StreamId} {stops : List TokenId} {look : Look}
  {next : Requests.Answer (Consuming.Request.receive stream stops) →
    Consuming.Action (Lane ⊕ Except ConsumeError Unit)}

/-! ## Under way to the messages -/

/-- The lane is so far with a poll of the queue. -/
def System.Stands (s : System) (queue : String) (look : Look) (j : Nat) : Prop :=
  s.looks j = look ∧ ∃ lane, s.base.lanes[j]? = some lane ∧ lane.queue = queue

/-- Two lanes have found the queue empty and not lain down yet, and since then two messages have come,
for which one wake-up is kept. -/
structure System.Crowded (s : System) (queue : String) : Prop where
  permit : (s.base.broker.waiters queue).permit = true
  messages : 2 ≤ (s.base.broker.ready queue).length
  lanes : ∃ j k, j ≠ k ∧ s.Stands queue .empty j ∧ s.Stands queue .empty k

/-- In the course of the events one has taken a wake-up that was kept for two. -/
def Deprived (events : List Serving.Event) (queue : String) : Prop :=
  ∃ before e after, events = before ++ e :: after ∧ (({} : System).after before).Crowded queue ∧
    ((({} : System).after (before ++ [e])).base.broker.waiters queue).permit = false

/-- As long as a lane of the queue sleeps or is about to, someone is under way to each ready message. -/
def System.Covered (s : System) (queue : String) : Prop :=
  ∃ awake : List Nat, awake.Nodup ∧ (∀ j ∈ awake, s.Stands queue .awake j) ∧
    (s.base.broker.waiters queue).Covers (∃ j, s.Stands queue .empty j) awake.length
      (s.base.broker.ready queue).length

/-- A lane in the midst of a poll stays where it is, by what another one does. -/
theorem Good.stands (h : Good s) (haside : Aside j s.base s'.base) (hlooks : s'.looks j = s.looks j)
    (hlook : look ≠ .rests) : s'.Stands queue look j ↔ s.Stands queue look j := by
  constructor
  · rintro ⟨hfar, lane, hget, hqueue⟩
    have hfar := hlooks.symm.trans hfar
    obtain ⟨-, -, ⟨lane', -, -, hget', -⟩, -⟩ := h.midst j (hfar ▸ hlook)
    obtain rfl := Option.some.inj (hget.symm.trans (haside.lane lane' hget'))
    exact ⟨hfar, lane, hget', hqueue⟩
  · rintro ⟨hfar, lane, hget, hqueue⟩
    exact ⟨hlooks.trans hfar, lane, haside.lane lane hget, hqueue⟩

theorem lanesOnly_of_befell {owner : Option Serving.Owner} {b b' : Serving.System}
    (hbefell : Befell owner b b') (h : LanesOnly b'.broker b'.maker queue) :
    LanesOnly b.broker b.maker queue := by
  cases hbefell with
  | none hhistory hmaker => rwa [Serving.broker_eq hhistory, hmaker] at h
  | one a _ _ hhistory hmaker =>
    rw [Serving.broker_of_history hhistory, hmaker] at h
    exact h.of_act

/-- What is no step of a poll keeps someone under way to each message. -/
theorem Good.covered_beside (h : Good s) (hother : ∀ j stream, e.owner? = some (.lane j) →
      ¬s.base.Receives j stream) (honly : LanesOnly s.base.broker s.base.maker queue)
    (hc : s.Covered queue) : { s with base := s.base.step e : System }.Covered queue := by
  have hstands : ∀ look j, look ≠ .rests →
      ({ s with base := s.base.step e : System }.Stands queue look j ↔ s.Stands queue look j) := by
    intro look j hlook
    by_cases hfar : s.looks j = look
    · exact h.stands (Serving.aside_step s.base e (h.apart hother (hfar ▸ hlook))) rfl hlook
    · exact ⟨fun hs => absurd hs.1 hfar, fun hs => absurd hs.1 hfar⟩
  obtain ⟨awake, hnodup, hall, hcovers⟩ := hc
  have habout : (∃ j, { s with base := s.base.step e : System }.Stands queue .empty j) →
      ∃ j, s.Stands queue .empty j := fun ⟨j, hj⟩ => ⟨j, (hstands .empty j nofun).mp hj⟩
  refine ⟨awake, hnodup, fun j hj => (hstands .awake j nofun).mpr (hall j hj), ?_⟩
  refine Notify.Covers.mono ?_ habout (Nat.le_refl _) (Nat.le_refl _)
  cases Serving.befell_step h.base e with
  | none hhistory =>
    rw [Serving.broker_eq hhistory]
    exact hcovers
  | one a hmay hreceives hhistory =>
    obtain ⟨new, -, htended⟩ := Serving.woken_act s.base.broker a
    obtain ⟨some, -, ht⟩ := htended queue
    obtain ⟨w, hw⟩ := Serving.exists_serves s.base.broker a queue
    rw [Serving.broker_of_history hhistory]
    refine (ht w hw).covers ?_ hcovers
    -- only a lane that is to receive asks a stream of the queue
    rintro ⟨stream, found, hpolls, hget, hqueue⟩
    obtain ⟨j, hmine⟩ := honly stream found hget hqueue
    have howner := (hmay _ (Memory.Activity.handle_of_polls hpolls)).symm.trans hmine
    exact hother j stream howner (hreceives stream hpolls j howner)

/-- A step of a poll of another queue is nothing to this one. -/
theorem Polled.apart {m m' : Memory} {look' : Look} (h : Polled m name stream look look' m')
    (hname : queue ≠ name) : m'.waiters queue = m.waiters queue ∧ m'.ready queue = m.ready queue := by
  cases h with
  | nothing => exact ⟨rfl, rfl⟩
  | taken _ _ h | empty _ _ h | lain _ h | took _ h => exact h.others queue hname

section Stepped

variable (h : Good s) (hstepped : Stepped j lane.queue stream s s')
  (hget : s.base.lanes[j]? = some lane)
  (hrest : lane.rest = .ask (.receive stream stops) next)

/-- The lane itself stays at its queue as long as it polls. -/
theorem Stepped.stands_self (hstepped : Stepped j lane.queue stream s s')
    (hget : s.base.lanes[j]? = some lane) (hlook : look ≠ .rests) :
    s'.Stands queue look j ↔ s'.looks j = look ∧ lane.queue = queue := by
  constructor
  · rintro ⟨hfar, found, hfound, hqueue⟩
    rw [(hstepped.midst (hfar ▸ hlook)).1] at hfound
    obtain rfl := Option.some.inj (hget.symm.trans hfound)
    exact ⟨hfar, hqueue⟩
  · rintro ⟨hfar, hqueue⟩
    refine ⟨hfar, lane, ?_, hqueue⟩
    rw [(hstepped.midst (hfar ▸ hlook)).1]
    exact hget

include h hstepped hget hrest

/-- A step of a poll keeps someone under way to each message, unless it takes a wake-up that was kept
for two. -/
theorem Stepped.covered (hc : s.Covered queue) :
    s'.Covered queue ∨ s.Crowded queue ∧ (s'.base.broker.waiters queue).permit = false := by
  have hothers : ∀ look k, look ≠ .rests → k ≠ j →
      (s'.Stands queue look k ↔ s.Stands queue look k) := fun look k hlook hk =>
    h.stands (hstepped.others k hk).1 (hstepped.others k hk).2 hlook
  have hself : ∀ look, look ≠ .rests →
      (s'.Stands queue look j ↔ s'.looks j = look ∧ lane.queue = queue) :=
    fun look => hstepped.stands_self hget
  obtain ⟨awake, hnodup, hall, hcovers⟩ := hc
  -- those who are awake still are, without this one
  have hawake : ∀ k ∈ awake, k ≠ j → s'.Stands queue .awake k := fun k hk hkj =>
    (hothers .awake k nofun hkj).mpr (hall k hk)
  -- who is about to sleep was before, but for this one
  have habout : s'.looks j ≠ .empty ∨ lane.queue ≠ queue → (∃ k, s'.Stands queue .empty k) →
      ∃ k, s.Stands queue .empty k := by
    rintro hnot ⟨k, hk⟩
    by_cases hkj : k = j
    · obtain ⟨hfar, hqueue⟩ := (hself .empty nofun).mp (hkj ▸ hk)
      exact absurd hqueue (hnot.resolve_left fun hne => hne hfar)
    · exact ⟨k, (hothers .empty k nofun hkj).mp hk⟩
  by_cases hname : queue = lane.queue
  · subst hname
    have hpolled := hstepped.polled
    have hunknown : s.looks j ≠ .rests → stream ∉ (s.base.broker.waiters lane.queue).known :=
      fun hmidst => (h.midst j hmidst).unknown hget hrest lane.queue
    have hapart : s.looks j ≠ .awake → ∀ k ∈ awake, k ≠ j := fun hne k hk hkj =>
      hne (hkj ▸ (hall k hk).1)
    unfold System.Covered
    generalize s'.base.broker = m' at hpolled ⊢
    generalize hlook : s.looks j = look, hlook' : s'.looks j = look' at *
    cases hpolled with
    | nothing =>
      exact .inl ⟨awake, hnodup, fun k hk => hawake k hk (hapart nofun k hk),
        hcovers.mono (habout (.inl nofun)) (Nat.le_refl _) (Nat.le_refl _)⟩
    | taken hne hready hshelved =>
      rw [hready, List.length_cons] at hcovers
      rw [hshelved.waiters, hshelved.ready]
      by_cases hrests : look = .rests
      · refine .inl ⟨awake, hnodup, fun k hk => hawake k hk (hapart (by rw [hrests]; nofun) k hk), ?_⟩
        exact (hcovers.rouse stream).mono (habout (.inl nofun)) (Nat.le_refl _) (Nat.le_refl _)
      · -- a lane that was awake is so no longer
        refine .inl ⟨awake.erase j, hnodup.erase j, fun k hk => ?_, ?_⟩
        · obtain ⟨hkj, hk⟩ := hnodup.mem_erase_iff.mp hk
          exact hawake k hk hkj
        · have hlength : awake.length ≤ (awake.erase j).length + 1 :=
            Nat.sub_le_iff_le_add.mp List.le_length_erase
          exact (hcovers.drawn (hunknown hrests) hlength).mono (habout (.inl nofun)) (Nat.le_refl _)
            (Nat.le_refl _)
    | empty hne hready hshelved =>
      rw [hshelved.waiters, hshelved.ready]
      exact .inl ⟨[], List.nodup_nil, nofun, hcovers.missed _ _ stream⟩
    | lain hpermit hshelved =>
      rw [hshelved.waiters, hshelved.ready]
      exact .inl ⟨awake, hnodup, fun k hk => hawake k hk (hapart nofun k hk),
        hcovers.lain hpermit ⟨j, hlook, lane, hget, rfl⟩ stream⟩
    | took hpermit hshelved =>
      rw [hshelved.waiters, hshelved.ready]
      by_cases hcrowded : s.Crowded lane.queue
      · exact .inr ⟨hcrowded, rfl⟩
      refine .inl ⟨j :: awake, List.nodup_cons.mpr ⟨fun hmem => hapart nofun j hmem rfl, hnodup⟩,
        fun k hk => ?_, hcovers.took hpermit ?_⟩
      · rcases List.mem_cons.mp hk with rfl | hk
        · exact (hself .awake nofun).mpr ⟨rfl, rfl⟩
        · exact hawake k hk (hapart nofun k hk)
      · rintro ⟨k, hk⟩
        have hkj : k ≠ j := fun hkj => by
          have hfar := hk.1
          rw [hkj, hlook'] at hfar
          cases hfar
        refine Nat.not_lt.mp fun hmany => hcrowded ⟨hpermit, hmany, j, k, hkj.symm, ?_, ?_⟩
        · exact ⟨hlook, lane, hget, rfl⟩
        · exact (hothers .empty k nofun hkj).mp hk
  · -- the lane reads another queue
    obtain ⟨hwaiters, hready⟩ := hstepped.polled.apart hname
    have hne : ∀ k ∈ awake, k ≠ j := fun k hk hkj => by
      obtain ⟨-, found, hfound, hqueue⟩ := hall k hk
      obtain rfl := Option.some.inj (hget.symm.trans (hkj ▸ hfound))
      exact hname hqueue.symm
    refine .inl ⟨awake, hnodup, fun k hk => hawake k hk (hne k hk), ?_⟩
    rw [hwaiters, hready]
    exact hcovers.mono (habout (.inr (Ne.symm hname))) (Nat.le_refl _) (Nat.le_refl _)

end Stepped

/-- A step keeps someone under way to each message, unless it takes a wake-up that was kept for two. -/
theorem Good.covered_step (h : Good s) (e : Serving.Event)
    (honly : LanesOnly (s.step e).base.broker (s.step e).base.maker queue)
    (hc : LanesOnly s.base.broker s.base.maker queue → s.Covered queue) :
    (s.step e).Covered queue ∨
      s.Crowded queue ∧ ((s.step e).base.broker.waiters queue).permit = false := by
  rcases step_cases s e with ⟨j, lane, stream, stops, next, hget, hrest, hstep⟩ | ⟨hstep, hother⟩ <;>
    rw [hstep] at honly ⊢
  · have hstepped := stepped_poll h hget hrest
    exact hstepped.covered h hget hrest (hc (lanesOnly_of_befell hstepped.befell honly))
  · have honly := lanesOnly_of_befell (Serving.befell_step h.base e) honly
    exact .inl (h.covered_beside hother honly (hc honly))

theorem after_concat (events : List Serving.Event) (e : Serving.Event) :
    ({} : System).after (events ++ [e]) = (({} : System).after events).step e :=
  List.foldl_append

theorem covered_after (events : List Serving.Event) (queue : String)
    (honly : LanesOnly (({} : System).after events).base.broker
      (({} : System).after events).base.maker queue) :
    (({} : System).after events).Covered queue ∨ Deprived events queue := by
  induction events using List.reverseRecOn with
  | nil => exact .inl ⟨[], List.nodup_nil, nofun, Notify.covers_new _⟩
  | append_singleton events e ih =>
    by_cases hbefore : Deprived events queue
    · obtain ⟨before, e', after, rfl, htook⟩ := hbefore
      exact .inr ⟨before, e', after ++ [e], by rw [List.append_assoc, List.cons_append], htook⟩
    · rw [after_concat] at honly ⊢
      refine ((good_after events).covered_step e honly fun h => (ih h).resolve_right hbefore).imp_right
        fun htook => ⟨events, e, [], rfl, htook.1, ?_⟩
      rw [after_concat]
      exact htook.2

/-! ## What can be relied on -/

/-- A lane that has taken the wake-up that was kept can go on. -/
theorem Good.awake (h : Good s) (hj : s.Stands queue .awake j) :
    j ∈ s.base.ready ∧ ∃ lane, s.base.lanes[j]? = some lane ∧ ¬lane.Occupied := by
  obtain ⟨hready, stream, ⟨lane, stops, next, hget, hrest⟩, -⟩ := h.midst j (by rw [hj.1]; decide)
  refine ⟨hready, lane, hget, ?_⟩
  rintro (hfinished | hhandling)
  · rw [Worker.finished, hrest] at hfinished
    cases hfinished
  · rw [Worker.handling, hrest] at hhandling
    cases hhandling

/-- What can be relied on where messages wait in a queue that only lanes read, after these events. -/
structure Unstranded (events : List Serving.Event) (s : System) : Prop where
  /-- When no lane can go on, and there is a message, no lane of the queue waits for one. -/
  occupied : Quiet s.base → ∀ queue, LanesOnly s.base.broker s.base.maker queue →
    s.base.broker.ready queue ≠ [] →
      (∀ lane ∈ s.base.lanes, lane.queue = queue → lane.Occupied) ∨ Deprived events queue
  /-- As long as a lane sleeps, as many lanes were woken as there are messages, and these can go on. -/
  woken : ∀ queue, LanesOnly s.base.broker s.base.maker queue →
    (s.base.broker.waiters queue).waiting ≠ [] →
      (∃ awake : List Nat, awake.Nodup ∧
        (s.base.broker.ready queue).length ≤
          (s.base.broker.waiters queue).handed.length + awake.length ∧
        (∀ j ∈ awake, j ∈ s.base.ready ∧ ∃ lane, s.base.lanes[j]? = some lane ∧ ¬lane.Occupied) ∧
        ∀ stream ∈ (s.base.broker.waiters queue).handed, ∃ j lane,
          s.base.maker (.stream stream) = some (.lane j) ∧ s.base.lanes[j]? = some lane ∧
            j ∈ s.base.ready ∧ ¬lane.Occupied) ∨
      Deprived events queue

theorem Good.woken (h : Good s) (honly : LanesOnly s.base.broker s.base.maker queue)
    (hc : s.Covered queue) (hwaits : (s.base.broker.waiters queue).waiting ≠ []) :
    ∃ awake : List Nat, awake.Nodup ∧
      (s.base.broker.ready queue).length ≤
        (s.base.broker.waiters queue).handed.length + awake.length ∧
      (∀ j ∈ awake, j ∈ s.base.ready ∧ ∃ lane, s.base.lanes[j]? = some lane ∧ ¬lane.Occupied) ∧
      ∀ stream ∈ (s.base.broker.waiters queue).handed, ∃ j lane,
        s.base.maker (.stream stream) = some (.lane j) ∧ s.base.lanes[j]? = some lane ∧
          j ∈ s.base.ready ∧ ¬lane.Occupied := by
  obtain ⟨awake, hnodup, hall, hcovers⟩ := hc
  exact ⟨awake, hnodup, hcovers.covered (hcovers.kept hwaits) (.inl hwaits),
    fun j hj => h.awake (hall j hj), fun stream hhanded => h.base.handed honly hhanded⟩

/-- If a lane sleeps, and there is a message, a lane can go on. -/
theorem Good.rouses (h : Good s) (honly : LanesOnly s.base.broker s.base.maker queue)
    (hc : s.Covered queue) (hmessage : s.base.broker.ready queue ≠ [])
    (hwaits : (s.base.broker.waiters queue).waiting ≠ []) : ¬Quiet s.base := fun hquiet => by
  obtain ⟨awake, -, hcovered, hawake, hhanded⟩ := h.woken honly hc hwaits
  have hmany := List.length_pos_iff.mpr hmessage
  rcases Nat.eq_zero_or_pos awake.length with hnone | hsome
  · obtain ⟨stream, hstream⟩ := List.exists_mem_of_length_pos
      (show 0 < (s.base.broker.waiters queue).handed.length by omega)
    obtain ⟨j, lane, -, hget, hready, hbusy⟩ := hhanded stream hstream
    exact hbusy (hquiet j hready lane hget)
  · obtain ⟨j, hj⟩ := List.exists_mem_of_length_pos hsome
    obtain ⟨hready, lane, hget, hbusy⟩ := hawake j hj
    exact hbusy (hquiet j hready lane hget)

/-- Whatever groups do and whatever befalls their broker, no message is left lying while a lane of its
queue waits for one, unless a wake-up that was kept for two was taken by one. -/
theorem unstranded_after (events : List Serving.Event) :
    Unstranded events (({} : System).after events) := by
  have h := good_after events
  have hcovered := covered_after events
  generalize ({} : System).after events = s at h hcovered
  refine ⟨fun hquiet queue honly hmessage => ?_, fun queue honly hwaits =>
    (hcovered queue honly).imp_left fun hc => h.woken honly hc hwaits⟩
  refine (hcovered queue honly).imp_left fun hc lane hmem hqueue => ?_
  obtain ⟨j, hget⟩ := List.mem_iff_getElem?.mp hmem
  obtain ⟨place, hgood⟩ := h.base.lane j lane hget nofun
  rcases hgood.settled with hready | hfinished | ⟨c, stream, -, hsleeps⟩
  · exact hquiet j hready lane hget
  · exact .inl hfinished
  · rw [hqueue] at hsleeps
    exact absurd hquiet (h.rouses honly hc hmessage (List.ne_nil_of_mem hsleeps))

/-- Two lanes of a group find their queue empty. Before they lie down, two messages come for it, and one
wake-up is kept: the first lane takes it, the second sleeps, and the first takes a message, which its
handler does not finish. -/
def depriving : List Serving.Event :=
  let g : Group := { consumers := [
    { config := { queue := "jobs", concurrency := 2 }
      handler := fun _ => do Handling.sleep 5; Handling.succeed }] }
  let w : (r : Handler.Request) → Requests.Answer r := fun
    | .now | .count _ => (0 : Nat)
    | .send _ => (.ok () : Except TransportError Unit)
    | .sleep _ | .note _ | .cancelRuns | .shutdown => ()
  let publish : Serving.Event := .other (.request (.publish 0 ⟨{ routingKey := "jobs" }, []⟩ {}))
  [.newToken, .newToken, .other (.request .openChannel), .start g 0 1] ++
    List.replicate 7 (.run 0) ++ List.replicate 4 (.lane 0 w) ++ List.replicate 4 (.lane 1 w) ++
    [publish, publish, .lane 0 w, .lane 1 w, .lane 0 w]

/-- The second lane sleeps beside the second message then, and nobody can go on. -/
theorem not_unstranded :
    ¬ ∀ (events : List Serving.Event) (queue : String),
      Still (({} : System).after events).base →
        LanesOnly (({} : System).after events).base.broker (({} : System).after events).base.maker
          queue →
        (({} : System).after events).base.broker.ready queue ≠ [] →
          ∀ lane ∈ (({} : System).after events).base.lanes, lane.queue = queue → lane.Occupied := by
  intro hall
  have hrun := hall depriving "jobs"
  have hlanes : (({} : System).after depriving).base.lanes.map
      (fun lane => (lane.queue, lane.finished, lane.handling)) =
        [("jobs", false, true), ("jobs", false, false)] := by decide +kernel
  have hready : ∀ j ∈ (({} : System).after depriving).base.ready, j = 0 := by decide +kernel
  have hwaits : ((({} : System).after depriving).base.runs.zipIdx.all fun run =>
      run.1.waits (({} : System).after depriving).base run.2) = true := by decide +kernel
  have hmessages : (({} : System).after depriving).base.broker.ready "jobs" ≠ [] := by
    decide +kernel
  have hmakers : ∀ stream < (({} : System).after depriving).base.broker.streams.length,
      (({} : System).after depriving).base.maker (.stream stream) = some (.lane stream) := by
    decide +kernel
  generalize (({} : System).after depriving).base = s at hrun hlanes hready hwaits hmessages hmakers
  obtain ⟨first, rest, hlist, hfirst, hrest⟩ := List.map_eq_cons_iff.mp hlanes
  obtain ⟨second, none, rfl, hsecond, hnone⟩ := List.map_eq_cons_iff.mp hrest
  simp only [Prod.mk.injEq] at hfirst hsecond
  have hquiet : Quiet s := by
    intro j hj lane hget
    rw [hready j hj, hlist] at hget
    cases hget
    exact .inr hfirst.2.2
  have hstill : Still s := by
    refine ⟨hquiet, fun i run hget => ?_⟩
    have hmem : (run, i) ∈ s.runs.zipIdx := List.mem_zipIdx_iff_getElem?.mpr hget
    exact List.all_eq_true.mp hwaits (run, i) hmem
  have honly : LanesOnly s.broker s.maker "jobs" := fun stream _ hget _ =>
    ⟨stream, hmakers stream (List.getElem?_eq_some_iff.mp hget).1⟩
  have hmem : second ∈ s.lanes := by
    rw [hlist]
    exact List.mem_cons_of_mem _ List.mem_cons_self
  rcases hrun hstill honly hmessages second hmem hsecond.1 with hfinished | hhandling
  · exact absurd (hsecond.2.1.symm.trans hfinished) (by decide)
  · exact absurd (hsecond.2.2.symm.trans hhandling) (by decide)

end Courier.Polling
