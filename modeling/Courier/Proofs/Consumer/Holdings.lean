import Courier.Proofs.Consumer.System
import Courier.Proofs.Memory.Waiting

/-!
# What lanes and runs have at the broker

What an activity of one owner does to what the others have: nothing, but that it may wake a lane
that sleeps (`Holds.of_other`, `LaneAt.of_other`, `asleep_act`), as long as everyone uses only what
he has made himself (`May`). `Sane` is what holds of the broker as a whole: no waiter is known
twice, and each is known where it reads.

`LaneAt` says what a lane has in its place: its channel is open and all others that it opened are
closed, it is known to no queue unless it reads, and all that it has received is settled, but for
the delivery that it holds. `LaneAt.moved` is the general step of the lane itself.
-/

namespace Courier.Serving

open Memory (Activity)
open Notify (Roused)

variable {m : Memory} {maker : Handle → Option Owner} {owner : Option Owner} {o : Owner} {a : Activity}
  {j : Nat} {queue : String} {place place' : Place} {channel : Option ChannelId}

/-- Only lanes read the queue. -/
def LanesOnly (m : Memory) (maker : Handle → Option Owner) (queue : String) : Prop :=
  ∀ (stream : StreamId) (s : Memory.Stream), m.streams[stream]? = some s → s.queue = queue →
    ∃ j, maker (.stream stream) = some (.lane j)

/-- The broker knows its streams, and what was made there is there. -/
structure Sane (m : Memory) (maker : Handle → Option Owner) : Prop where
  has : ∀ h o, maker h = some o → m.Has h
  nodup : ∀ queue, (m.waiters queue).known.Nodup
  placed : ∀ queue, ∀ x ∈ (m.waiters queue).known,
    ∃ s, m.streams[x]? = some s ∧ s.queue = queue

/-- An owner uses what he has made. -/
def May (maker : Handle → Option Owner) (owner : Option Owner) (a : Activity) : Prop :=
  ∀ h, a.handle? = some h → maker h = owner

theorem sane_empty : Sane {} fun _ => none where
  has _ _ h := by cases h
  nodup _ := List.nodup_nil
  placed _ _ h := by cases h

/-! ## Who has made what -/

theorem made_of_has {h : Handle} (hthere : m.Has h) : made maker m owner a h = maker h := by
  cases hmade : a.made m with
  | none => simp only [made, hmade]
  | some new =>
    have hne : h ≠ new := fun heq => (Memory.has_made hmade).1 (heq ▸ hthere)
    simp only [made, hmade, Function.update_of_ne hne]

theorem Sane.made_eq_some (hs : Sane m maker) {h : Handle} :
    made maker m owner a h = some o ↔ maker h = some o ∨ a.made m = some h ∧ owner = some o := by
  cases hmade : a.made m with
  | none => simp [made, hmade]
  | some new =>
    by_cases heq : h = new
    · subst heq
      have hnone : maker h ≠ some o := fun hmine => (Memory.has_made hmade).1 (hs.has h o hmine)
      simp [made, hmade, hnone]
    · simp [made, hmade, Function.update_of_ne heq, Ne.symm heq]

/-- What is made by one owner is not made by another one. -/
theorem Sane.made_other (hs : Sane m maker) (hne : owner ≠ some o) {h : Handle} :
    made maker m owner a h = some o ↔ maker h = some o := by
  rw [hs.made_eq_some]
  exact or_iff_left fun hnew => hne hnew.2

/-! ## Who waits -/

theorem exists_serves (m : Memory) (a : Activity) (queue : String) : ∃ w, a.Serves m queue w := by
  cases hh : a.handle? with
  | none => exact ⟨0, fun stream s hstream => by rw [hh] at hstream; cases hstream⟩
  | some h =>
    cases h with
    | stream id =>
      refine ⟨id, fun stream s hstream _ _ => ?_⟩
      rw [hh] at hstream
      cases hstream
      rfl
    | _ => exact ⟨0, fun stream s hstream => by rw [hh] at hstream; cases hstream⟩

/-- If the activity does not use this stream of the queue, it is about another one. -/
theorem exists_serves_ne {x : StreamId}
    (h : a.handle? ≠ some (.stream x) ∨ ¬∃ s, m.streams[x]? = some s ∧ s.queue = queue) :
    ∃ w, w ≠ x ∧ a.Serves m queue w := by
  obtain ⟨w, hw⟩ := exists_serves m a queue
  by_cases hx : w = x
  · subst hx
    refine ⟨w + 1, Nat.succ_ne_self w, fun stream s hstream hget hqueue => ?_⟩
    obtain rfl := hw stream s hstream hget hqueue
    exact absurd ⟨s, hget, hqueue⟩ (h.resolve_left fun hne => hne hstream)
  · exact ⟨w, hx, hw⟩

theorem woken_act (m : Memory) (a : Activity) :
    ∃ new, (m.act a).woken.drop m.woken.length = new ∧ ∀ queue, ∃ some, (∀ x ∈ some, x ∈ new) ∧
      ∀ w, a.Serves m queue w → Memory.Tended (a.Polls m queue) w (m.waiters queue)
        (m.ready queue).length ((m.act a).waiters queue) ((m.act a).ready queue).length some := by
  obtain ⟨new, hnew, htended⟩ := Memory.tending_act m a
  exact ⟨new, by rw [hnew, List.drop_left], htended⟩

/-- Who sleeps goes on sleeping or is woken, unless the activity is his. -/
theorem Sane.asleep_act (hs : Sane m maker) {x : StreamId} (hx : x ∈ (m.waiters queue).waiting)
    (h : a.handle? ≠ some (.stream x)) :
    x ∈ ((m.act a).waiters queue).waiting ∨ x ∈ (m.act a).woken.drop m.woken.length := by
  obtain ⟨new, hnew, htended⟩ := woken_act m a
  obtain ⟨some, hsome, ht⟩ := htended queue
  obtain ⟨w, hne, hw⟩ : ∃ w, w ≠ x ∧ a.Serves m queue w := exists_serves_ne (.inl h)
  rw [hnew]
  exact (((ht w hw).roused (hs.nodup queue)).asleep x hx (Ne.symm hne)).imp_right (hsome x)

/-- Nobody becomes known to a queue but by his own activity on a stream of it. -/
theorem Sane.known_act (hs : Sane m maker) {x : StreamId}
    (hx : x ∈ ((m.act a).waiters queue).known)
    (h : a.handle? ≠ some (.stream x) ∨ ¬∃ s, m.streams[x]? = some s ∧ s.queue = queue) :
    x ∈ (m.waiters queue).known := by
  obtain ⟨new, hnew, htended⟩ := woken_act m a
  obtain ⟨some, hsome, ht⟩ := htended queue
  obtain ⟨w, hne, hw⟩ := exists_serves_ne h
  exact ((ht w hw).roused (hs.nodup queue)).known x hx (Ne.symm hne)

theorem LanesOnly.of_act (h : LanesOnly (m.act a) (made maker m owner a) queue) :
    LanesOnly m maker queue := by
  intro stream s hget hqueue
  obtain ⟨j, hj⟩ := h stream s ((Memory.keeps_act m a).streams stream s hget) hqueue
  have hthere : m.Has (.stream stream) := (List.getElem?_eq_some_iff.mp hget).1
  exact ⟨j, (made_of_has hthere).symm.trans hj⟩

theorem Sane.act (hs : Sane m maker) : Sane (m.act a) (made maker m owner a) where
  has h o hmade := by
    rcases hs.made_eq_some.mp hmade with hold | ⟨hnew, -⟩
    · exact Memory.has_act (hs.has h o hold) a
    · exact (Memory.has_made hnew).2
  nodup queue := by
    obtain ⟨new, -, htended⟩ := woken_act m a
    obtain ⟨some, -, ht⟩ := htended queue
    obtain ⟨w, hw⟩ := exists_serves m a queue
    exact (ht w hw).nodup (hs.nodup queue)
  placed queue x hx := by
    have hkeeps := (Memory.keeps_act m a).streams
    by_cases hreads : ∃ s, m.streams[x]? = some s ∧ s.queue = queue
    · obtain ⟨s, hget, hqueue⟩ := hreads
      exact ⟨s, hkeeps x s hget, hqueue⟩
    · obtain ⟨s, hget, hqueue⟩ := hs.placed queue x (hs.known_act hx (.inr hreads))
      exact ⟨s, hkeeps x s hget, hqueue⟩

/-! ## Channels -/

/-- An owner has this channel, if he has one, and all others that he opened are closed. -/
structure Holds (m : Memory) (maker : Handle → Option Owner) (o : Owner)
    (channel : Option ChannelId) : Prop where
  others : ∀ c, maker (.channel c) = some o → m.isClosed c = true ∨ channel = some c
  mine : ∀ c, channel = some c → maker (.channel c) = some o ∧ m.isClosed c = false

theorem handle_of_closes {c : ChannelId} (h : a.closes c = true) :
    a.handle? = some (.channel c) := by
  cases a with
  | request r =>
    cases r with
    | close channel => rw [← of_decide_eq_true h]; rfl
    | dropChannel channel => rw [← of_decide_eq_true h]; rfl
    | _ => cases h
  | _ => cases h

theorem Holds.kept (h : Holds m maker o channel) (hs : Sane m maker)
    (hnew : ∀ c, a.made m = some (.channel c) → owner ≠ some o)
    (hcloses : ∀ c, channel = some c → a.closes c = false) :
    Holds (m.act a) (made maker m owner a) o channel where
  others c hc := by
    have hold : maker (.channel c) = some o := (hs.made_eq_some.mp hc).resolve_right fun hmade =>
      hnew c hmade.1 hmade.2
    refine (h.others c hold).imp_left fun hclosed => ?_
    rw [Memory.isClosed_act (hs.has _ _ hold), hclosed, Bool.true_or]
  mine c hc := by
    obtain ⟨hmine, hopen⟩ := h.mine c hc
    refine ⟨hs.made_eq_some.mpr (.inl hmine), ?_⟩
    rw [Memory.isClosed_act (hs.has _ _ hmine), hopen, hcloses c hc]
    rfl

/-- What one owner does leaves the others what they have. -/
theorem Holds.of_other (h : Holds m maker o channel) (hs : Sane m maker)
    (hmay : May maker owner a) (hne : owner ≠ some o) :
    Holds (m.act a) (made maker m owner a) o channel := by
  refine h.kept hs (fun _ _ => hne) fun c hc => ?_
  cases hcloses : a.closes c with
  | false => rfl
  | true =>
    refine absurd ?_ hne
    rw [← hmay _ (handle_of_closes hcloses), (h.mine c hc).1]

theorem Holds.opened (h : Holds m maker o none) (hs : Sane m maker) :
    Holds (m.act (.request .openChannel)) (made maker m (some o) (.request .openChannel)) o
      (some m.channels.length) where
  others c hc := by
    rcases hs.made_eq_some.mp hc with hold | ⟨hnew, -⟩
    · refine .inl ?_
      rw [Memory.isClosed_act (hs.has _ _ hold), (h.others c hold).resolve_right nofun]
      rfl
    · cases hnew
      exact .inr rfl
  mine c hc := by
    cases hc
    refine ⟨hs.made_eq_some.mpr (.inr ⟨rfl, rfl⟩), ?_⟩
    show Memory.isClosed { m with channels := m.channels ++ [({} : Memory.Channel)] } _ = false
    simp [Memory.isClosed]

theorem Holds.shut {c : ChannelId} (h : Holds m maker o (some c)) (hs : Sane m maker)
    (hcloses : a.closes c = true) (hnone : a.made m = none) :
    Holds (m.act a) (made maker m owner a) o none where
  others c' hc' := by
    have hold : maker (.channel c') = some o := (hs.made_eq_some.mp hc').resolve_right fun hmade => by
      rw [hnone] at hmade
      cases hmade.1
    refine .inl ?_
    rw [Memory.isClosed_act (hs.has _ _ hold)]
    rcases h.others c' hold with hclosed | heq
    · rw [hclosed, Bool.true_or]
    · cases heq
      rw [hcloses, Bool.or_true]
  mine _ hc := by cases hc

/-! ## Lanes -/

namespace Place

/-- The channel of the lane, as long as it is open. -/
def channel? : Place → Option ChannelId
  | .opened c => some c
  | .reading c _ => some c
  | .holding c _ _ => some c
  | .leaving c _ => some c
  | .closing c => some c
  | _ => none

def stream? : Place → Option StreamId
  | .reading _ stream => some stream
  | .holding _ stream _ => some stream
  | .leaving _ stream => some stream
  | _ => none

/-- The stream that may be known to its queue. -/
def listening? : Place → Option StreamId
  | .reading _ stream => some stream
  | .leaving _ stream => some stream
  | _ => none

def delivery? : Place → Option DeliveryId
  | .holding _ _ delivery => some delivery
  | _ => none

end Place

/-- What a lane has in its place. -/
structure LaneAt (m : Memory) (maker : Handle → Option Owner) (j : Nat) (queue : String)
    (place : Place) : Prop where
  channels : Holds m maker (.lane j) place.channel?
  stream : ∀ stream, place.stream? = some stream → maker (.stream stream) = some (.lane j) ∧
    ∃ c, place.channel? = some c ∧ m.streams[stream]? = some ⟨c, queue⟩
  known : ∀ stream name, maker (.stream stream) = some (.lane j) →
    stream ∈ (m.waiters name).known → place.listening? = some stream
  deliveries : ∀ delivery, maker (.delivery delivery) = some (.lane j) →
    m.Settled delivery ∨ place.delivery? = some delivery
  delivery : ∀ delivery, place.delivery? = some delivery →
    maker (.delivery delivery) = some (.lane j)
  closed : ∀ c, place = .closed c → maker (.channel c) = some (.lane j)

variable (hs : Sane m maker) (hknown : ∀ d ∈ m.deliveries, m.queueExists d.queue = true)

include hs hknown

/-- What others do leaves a lane what it has. -/
theorem LaneAt.of_other (h : LaneAt m maker j queue place) (hmay : May maker owner a)
    (hne : owner ≠ some (.lane j)) :
    LaneAt (m.act a) (made maker m owner a) j queue place where
  channels := h.channels.of_other hs hmay hne
  stream stream hstream := by
    obtain ⟨hmine, c, hc, hget⟩ := h.stream stream hstream
    exact ⟨hs.made_eq_some.mpr (.inl hmine), c, hc, (Memory.keeps_act m a).streams _ _ hget⟩
  known stream name hmine hmem := by
    have hmine := (hs.made_other hne).mp hmine
    refine h.known stream name hmine (hs.known_act hmem (.inl fun hhandle => hne ?_))
    rw [← hmay _ hhandle, hmine]
  deliveries delivery hmine :=
    (h.deliveries delivery ((hs.made_other hne).mp hmine)).imp_left fun hsettled =>
      Memory.settled_act hknown hsettled a
  delivery delivery hd := hs.made_eq_some.mpr (.inl (h.delivery delivery hd))
  closed c hc := hs.made_eq_some.mpr (.inl (h.closed c hc))

/-- What a lane itself does. -/
theorem LaneAt.moved (h : LaneAt m maker j queue place)
    (hchannels : Holds (m.act a) (made maker m (some (.lane j)) a) (.lane j) place'.channel?)
    (hstream : ∀ stream, place'.stream? = some stream → ∃ c, place'.channel? = some c ∧
      (place.stream? = some stream ∧ place.channel? = some c ∨
        a.made m = some (.stream stream) ∧ (m.act a).streams[stream]? = some ⟨c, queue⟩))
    (hlistening : ∀ stream name, a.handle? = some (.stream stream) ∨ place.listening? = some stream →
      stream ∈ ((m.act a).waiters name).known → place'.listening? = some stream)
    (hdelivery : ∀ delivery, place.delivery? = some delivery ∨ a.made m = some (.delivery delivery) →
      (m.act a).Settled delivery ∨ place'.delivery? = some delivery)
    (hheld : ∀ delivery, place'.delivery? = some delivery →
      place.delivery? = some delivery ∨ a.made m = some (.delivery delivery))
    (hclosed : ∀ c, place' = .closed c → place.channel? = some c) :
    LaneAt (m.act a) (made maker m (some (.lane j)) a) j queue place' where
  channels := hchannels
  stream stream hat := by
    obtain ⟨c, hc, ⟨hold, hold'⟩ | ⟨hnew, hget⟩⟩ := hstream stream hat
    · obtain ⟨hmine, c', hc', hget⟩ := h.stream stream hold
      obtain rfl := Option.some.inj (hc'.symm.trans hold')
      exact ⟨hs.made_eq_some.mpr (.inl hmine), c', hc, (Memory.keeps_act m a).streams _ _ hget⟩
    · exact ⟨hs.made_eq_some.mpr (.inr ⟨hnew, rfl⟩), c, hc, hget⟩
  known stream name hmine hmem := by
    refine hlistening stream name ?_ hmem
    by_cases hhandle : a.handle? = some (.stream stream)
    · exact .inl hhandle
    · have hmem := hs.known_act hmem (.inl hhandle)
      obtain ⟨s, hget, -⟩ := hs.placed name stream hmem
      have hthere : m.Has (.stream stream) := (List.getElem?_eq_some_iff.mp hget).1
      exact .inr (h.known stream name ((made_of_has hthere).symm.trans hmine) hmem)
  deliveries delivery hmine := by
    rcases hs.made_eq_some.mp hmine with hold | ⟨hnew, -⟩
    · rcases h.deliveries delivery hold with hsettled | hat
      · exact .inl (Memory.settled_act hknown hsettled a)
      · exact hdelivery delivery (.inl hat)
    · exact hdelivery delivery (.inr hnew)
  delivery delivery hat :=
    hs.made_eq_some.mpr ((hheld delivery hat).imp (h.delivery delivery) fun hnew => ⟨hnew, rfl⟩)
  closed c hc := hs.made_eq_some.mpr (.inl (h.channels.mine c (hclosed c hc)).1)

end Courier.Serving
