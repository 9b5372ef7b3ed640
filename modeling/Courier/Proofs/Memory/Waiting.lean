import Courier.Proofs.Memory.Handles
import Courier.Proofs.Notify

/-!
# Who waits for the messages of a queue

Whatever befalls a broker, what it does with those who wait for the messages of a queue is made of
few things (`Tended`, `tending_act`): one is woken for each message that is put into the queue, all
are when a channel is given back, and a stream that looks takes its wake-up, and one that lies down a
wake-up that was kept, or sleeps. Who sleeps goes on sleeping or is noted as woken (`Tended.roused`), and
what others do than those who look or lie down keeps someone under way to each ready message
(`Tended.covers`).

What a stream finds when it looks is `Found`, and what becomes of one that lies down is `Lain`.
-/

namespace Courier.Memory

open Notify (Roused)

variable {m m' m₁ m₂ m₃ : Memory} {queue : String} {stream : StreamId}

/-- Those who wait for the messages of a queue. -/
def waiters (m : Memory) (queue : String) : Notify :=
  ((m.queue? queue).map (·.available)).getD {}

/-! ## One queue -/

section Tended

variable {polled : Prop} {w : StreamId} {n n' : Notify} {k k' : Nat} {woken : List StreamId}

/-- What is done with the waiters of a queue that has so many ready messages, for a stream `w`, and
whom that wakes. -/
inductive Tended (polled : Prop) (w : StreamId) :
    Notify → Nat → Notify → Nat → List StreamId → Prop where
  | none (n : Notify) (k : Nat) : Tended polled w n k n k []
  | one (n : Notify) (k : Nat) : Tended polled w n k n.notifyOne.1 (k + 1) n.notifyOne.2
  | all (n : Notify) (k : Nat) : Tended polled w n k n.notifyAll.1 k n.notifyAll.2
  | abandoned (n : Notify) (k : Nat) : Tended polled w n k (n.abandon w).1 k (n.abandon w).2
  /-- The stream looks, and may have taken a message. -/
  | looked (n : Notify) (k k' : Nat) (hpolled : polled) : Tended polled w n k (n.rouse w) k' []
  | lain (n : Notify) (k : Nat) (hpolled : polled) (hw : w ∉ n.known) :
      Tended polled w n k (n.sleepOrTake w).1 k []
  | trans {n n' n'' : Notify} {k k' k'' : Nat} {woken more : List StreamId}
      (h : Tended polled w n k n' k' woken) (h' : Tended polled w n' k' n'' k'' more) :
      Tended polled w n k n'' k'' (woken ++ more)

theorem Tended.nodup (h : Tended polled w n k n' k' woken) (hn : n.known.Nodup) : n'.known.Nodup := by
  induction h with
  | none => exact hn
  | one => exact (Notify.known_notifyOne _).nodup_iff.mpr hn
  | all => exact (Notify.known_notifyAll _).nodup_iff.mpr hn
  | abandoned => exact Notify.nodup_abandon hn w
  | looked => exact Notify.nodup_rouse hn w
  | lain _ _ _ hw => exact Notify.nodup_sleepOrTake hn hw
  | trans _ _ ih ih' => exact ih' (ih hn)

/-- Someone is under way to each ready message still, unless a stream was asked. -/
theorem Tended.covers {about : Prop} {awake : Nat} (h : Tended polled w n k n' k' woken)
    (hpolled : ¬polled) (hc : n.Covers about awake k) : n'.Covers about awake k' := by
  induction h with
  | none => exact hc
  | one => exact hc.notifyOne
  | all => exact hc.notifyAll
  | abandoned => exact hc.abandon w
  | looked _ _ _ h => exact absurd h hpolled
  | lain _ _ h => exact absurd h hpolled
  | trans _ _ ih ih' => exact ih' (ih hc)

theorem Tended.roused (h : Tended polled w n k n' k' woken) (hn : n.known.Nodup) :
    Roused w n n' woken := by
  induction h with
  | none => exact .refl w _
  | one => exact Notify.roused_notifyOne w _
  | all => exact Notify.roused_notifyAll w _
  | abandoned => exact Notify.roused_abandon hn w
  | looked => exact Notify.roused_rouse w _
  | lain => exact Notify.roused_sleepOrTake w _
  | trans h _ ih ih' => exact (ih hn).trans (ih' (h.nodup hn))

end Tended

/-! ## All queues -/

/-- What is done with the waiters of all queues, for streams that may stand for them. -/
def Tending (who : String → StreamId → Prop) (polled : String → Prop) (m m' : Memory) : Prop :=
  ∃ woken, m'.woken = m.woken ++ woken ∧ ∀ queue, ∃ some, (∀ x ∈ some, x ∈ woken) ∧
    ∀ w, who queue w → Tended (polled queue) w (m.waiters queue) (m.ready queue).length
      (m'.waiters queue) (m'.ready queue).length some

section Tending

variable {who : String → StreamId → Prop} {polled : String → Prop}

theorem Tending.trans (h : Tending who polled m₁ m₂) (h' : Tending who polled m₂ m₃) :
    Tending who polled m₁ m₃ := by
  obtain ⟨woken, hwoken, htended⟩ := h
  obtain ⟨more, hmore, htended'⟩ := h'
  refine ⟨woken ++ more, by rw [hmore, hwoken, List.append_assoc], fun queue => ?_⟩
  obtain ⟨some, hsome, ht⟩ := htended queue
  obtain ⟨some', hsome', ht'⟩ := htended' queue
  refine ⟨some ++ some', fun x hx => ?_, fun w hw => (ht w hw).trans (ht' w hw)⟩
  exact List.mem_append.mpr ((List.mem_append.mp hx).imp (hsome x) (hsome' x))

/-- The queues stay as they are. -/
theorem tending_of_shelves (hwoken : m'.woken = m.woken)
    (hwaiters : ∀ queue, m'.waiters queue = m.waiters queue)
    (hready : ∀ queue, m'.ready queue = m.ready queue) : Tending who polled m m' := by
  refine ⟨[], by rw [hwoken, List.append_nil], fun queue => ⟨[], nofun, fun w _ => ?_⟩⟩
  rw [hwaiters, hready]
  exact .none _ _

theorem tending_of_queues (hwoken : m'.woken = m.woken) (hqueues : m'.queues = m.queues) :
    Tending who polled m m' := by
  refine tending_of_shelves hwoken (fun queue => ?_) fun queue => ?_
  · rw [waiters, queue?, hqueues, waiters, queue?]
  · rw [ready, ready?, queue?, hqueues, ready, ready?, queue?]

theorem Tending.refl (m : Memory) : Tending who polled m m :=
  tending_of_queues rfl rfl

theorem waiters_modifyQueue (m : Memory) (name : String) (f : Queue → Queue) (queue : String) :
    (m.modifyQueue name f).waiters queue =
      if queue = name then ((m.queue? queue).map fun q => (f q).available).getD {}
      else m.waiters queue := by
  rw [waiters, queue?_modifyQueue]
  split
  · rw [Option.map_map]
    rfl
  · rfl

theorem woken_notify (m : Memory) (name : String) (f : Notify → Notify × List Nat) {q : Queue}
    (hq : m.queue? name = some q) : (m.notify name f).woken = m.woken ++ (f q.available).2 := by
  simp only [notify, hq]

theorem waiters_notify (m : Memory) (name : String) (f : Notify → Notify × List Nat) {q : Queue}
    (hq : m.queue? name = some q) (queue : String) :
    (m.notify name f).waiters queue =
      if queue = name then (f q.available).1 else m.waiters queue := by
  have hsame : (m.notify name f).waiters queue =
      (m.modifyQueue name fun q' => { q' with available := (f q.available).1 }).waiters queue := by
    simp only [notify, hq]
    rfl
  rw [hsame, waiters_modifyQueue]
  split
  · rename_i hname
    rw [hname, hq]
    rfl
  · rfl

theorem notify_of_none {name : String} (f : Notify → Notify × List Nat)
    (hq : m.queue? name = none) : m.notify name f = m := by
  simp only [notify, hq]

/-- The waiters of one queue are used. -/
theorem tending_notify (m : Memory) (name : String) {f : Notify → Notify × List Nat}
    (hf : ∀ w, who name w → ∀ n, Tended (polled name) w n (m.ready name).length (f n).1
      (m.ready name).length (f n).2) : Tending who polled m (m.notify name f) := by
  cases hq : m.queue? name with
  | none =>
    rw [notify_of_none f hq]
    exact .refl m
  | some q =>
    have hready : ∀ queue, (m.notify name f).ready queue = m.ready queue := fun queue => by
      rw [ready, (same_notify m name f).ready, ready]
    refine ⟨(f q.available).2, woken_notify m name f hq, fun queue => ?_⟩
    by_cases hname : queue = name
    · subst hname
      have hwaiters : m.waiters queue = q.available := by rw [waiters, hq]; rfl
      refine ⟨_, fun x hx => hx, fun w hw => ?_⟩
      rw [hready, waiters_notify m queue f hq, if_pos rfl, hwaiters]
      exact hf w hw _
    · refine ⟨[], List.forall_mem_nil _, fun w _ => ?_⟩
      rw [hready, waiters_notify m name f hq, if_neg hname]
      exact .none _ _

theorem tending_notifyAll (m : Memory) (names : List String) :
    Tending who polled m (names.foldl (fun m name => m.notify name Notify.notifyAll) m) := by
  induction names generalizing m with
  | nil => exact .refl m
  | cons name names ih =>
    exact (tending_notify m name fun w _ n => .all n _).trans (ih _)

/-- A message is put into a queue, and one is woken for it. -/
theorem tending_put (m : Memory) (name : String) (f : List Message → List Message)
    (hf : ∀ messages, (f messages).length = messages.length + 1) :
    Tending who polled m
      ((m.modifyQueue name fun q => { q with messages := f q.messages }).notify name
        Notify.notifyOne) := by
  have hready : ∀ queue, ((m.modifyQueue name fun q => { q with messages := f q.messages }).notify name
      Notify.notifyOne).ready? queue =
      if queue = name then (m.ready? queue).map f else m.ready? queue := fun queue => by
    rw [(same_notify _ name _).ready]
    exact ready?_modifyQueue m name (fun _ => rfl) queue
  have hqueue : ∀ queue, (m.modifyQueue name fun q => { q with messages := f q.messages }).queue? queue =
      if queue = name then (m.queue? queue).map fun q => { q with messages := f q.messages }
      else m.queue? queue := queue?_modifyQueue m name _
  have hwoken : (m.modifyQueue name fun q => { q with messages := f q.messages }).woken = m.woken := rfl
  generalize m.modifyQueue name (fun q => { q with messages := f q.messages }) = put
    at hready hqueue hwoken ⊢
  have hother : ∀ queue ≠ name, put.waiters queue = m.waiters queue := fun queue hname => by
    rw [waiters, hqueue, if_neg hname, waiters]
  cases hq : m.queue? name with
  | none =>
    have hnone : put.queue? name = none := by rw [hqueue, if_pos rfl, hq, Option.map_none]
    have hnone' : m.ready? name = none := by rw [ready?, hq, Option.map_none]
    rw [notify_of_none _ hnone] at hready ⊢
    refine tending_of_shelves hwoken (fun queue => ?_) fun queue => ?_
    · by_cases hname : queue = name
      · rw [hname, waiters, waiters, hnone, hq]
      · exact hother queue hname
    · rw [ready, hready, ready]
      split
      · rename_i hname
        rw [hname, hnone']
        rfl
      · rfl
  | some q =>
    have hsome : put.queue? name = some { q with messages := f q.messages } := by
      rw [hqueue, if_pos rfl, hq, Option.map_some]
    refine ⟨_, by rw [woken_notify put name _ hsome, hwoken], fun queue => ?_⟩
    by_cases hname : queue = name
    · subst hname
      have hwaiters : m.waiters queue = q.available := by rw [waiters, hq]; rfl
      have hlength : (ready (put.notify queue Notify.notifyOne) queue).length =
          (m.ready queue).length + 1 := by
        rw [ready, hready, if_pos rfl, ready, ready?, hq]
        exact hf q.messages
      refine ⟨_, fun x hx => hx, fun w _ => ?_⟩
      rw [waiters_notify put queue _ hsome, if_pos rfl, hwaiters, hlength]
      exact .one _ _
    · refine ⟨[], List.forall_mem_nil _, fun w _ => ?_⟩
      have hsame : ready (put.notify name Notify.notifyOne) queue = m.ready queue := by
        rw [ready, hready, if_neg hname, ready]
      rw [waiters_notify put name _ hsome, if_neg hname, hother queue hname, hsame]
      exact .none _ _

theorem tending_push (m : Memory) (name : String) (message : Message) :
    Tending who polled m (m.push name message) :=
  tending_put m name (· ++ [message]) fun _ => List.length_append

theorem tending_requeue (m : Memory) (name : String) (message : Message) :
    Tending who polled m (m.requeue name message) :=
  tending_put m name (message :: ·) fun _ => rfl

theorem tending_pushes (m : Memory) (targets : List String) (message : Message) :
    Tending who polled m (targets.foldl (fun m target => m.push target message) m) := by
  induction targets generalizing m with
  | nil => exact .refl m
  | cons target targets ih => exact (tending_push m target message).trans (ih _)

/-! ## A stream is asked -/

/-- The waiters and the messages of one queue are these now, and nothing else has happened to any. -/
structure Shelved (m : Memory) (name : String) (n : Notify) (messages : List Message) (m' : Memory) :
    Prop where
  woken : m'.woken = m.woken
  waiters : m'.waiters name = n
  ready : m'.ready name = messages
  others : ∀ queue ≠ name, m'.waiters queue = m.waiters queue ∧ m'.ready queue = m.ready queue

/-- What a stream finds when it looks. -/
inductive Found (m : Memory) (stream : StreamId) (s : Stream) : Transport.Next × Memory → Prop where
  | asleep (hw : stream ∈ (m.waiters s.queue).waiting) : Found m stream s (.waiting, m)
  | missing (hnone : m.queue? s.queue = none) : Found m stream s (.ended, m)
  | past {m' : Memory} (hclosed : m.isClosed s.channel = true)
      (h : Shelved m s.queue ((m.waiters s.queue).rouse stream) (m.ready s.queue) m') :
      Found m stream s (.ended, m')
  | taken {m' : Memory} {message : Message} {rest : List Message}
      (hw : stream ∉ (m.waiters s.queue).waiting) (hready : m.ready s.queue = message :: rest)
      (h : Shelved m s.queue ((m.waiters s.queue).rouse stream) rest m') :
      Found m stream s (.delivered m.deliveries.length message, m')
  | empty {m' : Memory} (hthere : m.queueExists s.queue = true)
      (hw : stream ∉ (m.waiters s.queue).waiting) (hready : m.ready s.queue = [])
      (h : Shelved m s.queue ((m.waiters s.queue).rouse stream) [] m') :
      Found m stream s (.waiting, m')

/-- What becomes of a stream that lies down: it sleeps, unless a wake-up was kept, which it takes. -/
inductive Lain (m : Memory) (stream : StreamId) (s : Stream) : Bool × Memory → Prop where
  | missing (hnone : m.queue? s.queue = none) : Lain m stream s (true, m)
  | known (hknown : stream ∈ (m.waiters s.queue).known) : Lain m stream s (true, m)
  | lain {m' : Memory} (hnew : stream ∉ (m.waiters s.queue).known)
      (hpermit : (m.waiters s.queue).permit = false)
      (h : Shelved m s.queue
        { m.waiters s.queue with waiting := (m.waiters s.queue).waiting ++ [stream] }
        (m.ready s.queue) m') : Lain m stream s (true, m')
  | took {m' : Memory} (hnew : stream ∉ (m.waiters s.queue).known)
      (hpermit : (m.waiters s.queue).permit = true)
      (h : Shelved m s.queue { m.waiters s.queue with permit := false } (m.ready s.queue) m') :
      Lain m stream s (false, m')

/-- A queue whose waiter has used the wake-up that he was given, if he was given one. -/
def roused (m : Memory) (name : String) (q : Queue) (stream : StreamId) : Memory :=
  match q.available.takeWakeUp stream with
  | some available => m.modifyQueue name fun q => { q with available }
  | none => m

theorem same_roused (m : Memory) (name : String) (q : Queue) (stream : StreamId) :
    Same m (m.roused name q stream) := by
  unfold roused
  split
  · exact same_modifyQueue m name fun _ => rfl
  · exact .refl m

theorem queue?_roused {name : String} {q : Queue} (hq : m.queue? name = some q) (stream : StreamId)
    (queue : String) :
    (m.roused name q stream).queue? queue =
      if queue = name then some { q with available := q.available.rouse stream }
      else m.queue? queue := by
  unfold roused Notify.rouse
  cases q.available.takeWakeUp stream with
  | none =>
    dsimp only [Option.getD_none]
    split
    · rename_i hname
      rw [hname, hq]
    · rfl
  | some available =>
    dsimp only
    rw [queue?_modifyQueue]
    split
    · rename_i hname
      rw [hname, hq]
      rfl
    · rfl

theorem waiters_of_queue? {q : Queue} (hq : m.queue? queue = some q) :
    m.waiters queue = q.available := by
  rw [waiters, hq]
  rfl

theorem ready_of_queue? {q : Queue} (hq : m.queue? queue = some q) : m.ready queue = q.messages := by
  rw [ready, ready?, hq]
  rfl

theorem sleeps_iff {s : Stream} (hs : m.streams[stream]? = some s) :
    m.sleeps stream = true ↔ stream ∈ (m.waiters s.queue).waiting := by
  simp only [sleeps, hs, waiters]
  cases m.queue? s.queue with
  | none => simp
  | some q => exact Notify.sleeps_iff

theorem pop_of_queue? {name : String} {q : Queue} (hq : m.queue? name = some q) :
    m.pop name =
      match q.messages with
      | [] => none
      | message :: rest => some (message, m.modifyQueue name fun q => { q with messages := rest }) := by
  cases hmessages : q.messages <;> simp only [pop, hq, hmessages]

/-- Only the waiters and the messages of one queue have changed, and these so. -/
theorem shelved_modifyQueue {name : String} {q : Queue} (hq : m.queue? name = some q)
    (f : Queue → Queue) : Shelved m name (f q).available (f q).messages (m.modifyQueue name f) := by
  refine ⟨rfl, ?_, ?_, fun queue hname => ⟨?_, ?_⟩⟩
  · rw [waiters_modifyQueue, if_pos rfl, hq]
    rfl
  · rw [ready, ready?, queue?_modifyQueue, if_pos rfl, hq]
    rfl
  · rw [waiters_modifyQueue, if_neg hname]
  · rw [ready, ready?, queue?_modifyQueue, if_neg hname, ready, ready?]

theorem found (m : Memory) {s : Stream} (hs : m.streams[stream]? = some s) :
    Found m stream s (m.look stream) := by
  simp only [look, hs]
  cases hq : m.queue? s.queue with
  | none => exact .missing hq
  | some q =>
    dsimp only
    have hwaiters := waiters_of_queue? hq
    have hready := ready_of_queue? hq
    by_cases hsleeps : q.available.sleeps stream = true
    · rw [if_pos hsleeps]
      exact .asleep (hwaiters ▸ Notify.sleeps_iff.mp hsleeps)
    rw [if_neg hsleeps]
    have hw : stream ∉ (m.waiters s.queue).waiting := fun hmem =>
      hsleeps (Notify.sleeps_iff.mpr (hwaiters ▸ hmem))
    change Found m stream s ((m.roused s.queue q stream).draw s)
    have hsame := same_roused m s.queue q stream
    have hqueue := queue?_roused hq stream
    have hwoken : (m.roused s.queue q stream).woken = m.woken := by
      unfold roused
      split <;> rfl
    generalize m.roused s.queue q stream = m₁ at hsame hqueue hwoken ⊢
    have hq₁ := (hqueue s.queue).trans (if_pos rfl)
    have hothers : ∀ queue ≠ s.queue, m₁.queue? queue = m.queue? queue := fun queue hname =>
      (hqueue queue).trans (if_neg hname)
    have hclosed : m₁.isClosed s.channel = m.isClosed s.channel := by
      have hchannels : m₁.channels = m.channels :=
        show m₁.frame.channels = m.frame.channels by rw [hsame.frame]
      rw [isClosed, hchannels, isClosed]
    have hdeliveries : m₁.deliveries = m.deliveries := by
      simpa using congrArg Memory.deliveries hsame.frame
    have hroused : Shelved m s.queue ((m.waiters s.queue).rouse stream) (m.ready s.queue) m₁ := by
      refine ⟨hwoken, ?_, ?_, fun queue hname => ?_⟩
      · rw [waiters_of_queue? hq₁, hwaiters]
      · rw [ready_of_queue? hq₁, hready]
      · rw [waiters, hothers queue hname, ready, ready?, hothers queue hname]
        exact ⟨rfl, rfl⟩
    unfold draw
    split
    · rename_i hover
      rw [hclosed] at hover
      exact .past hover hroused
    · rw [pop_of_queue? hq₁]
      cases hmessages : q.messages with
      | cons message rest =>
        have hshelved := shelved_modifyQueue hq₁ fun q => { q with messages := rest }
        show Found m stream s (.delivered m₁.deliveries.length message, _)
        rw [hdeliveries]
        exact .taken hw (hready.trans hmessages) ⟨hshelved.woken.trans hroused.woken,
          hshelved.waiters.trans (by rw [hwaiters]), hshelved.ready, fun queue hname =>
            ⟨(hshelved.others queue hname).1.trans (hroused.others queue hname).1,
              (hshelved.others queue hname).2.trans (hroused.others queue hname).2⟩⟩
      | nil =>
        have hempty := hready.trans hmessages
        exact .empty (Option.isSome_iff_exists.mpr ⟨q, hq⟩) hw hempty (hempty ▸ hroused)

theorem lain (m : Memory) {s : Stream} (hs : m.streams[stream]? = some s) :
    Lain m stream s (m.lieDown stream) := by
  simp only [lieDown, hs]
  cases hq : m.queue? s.queue with
  | none => exact .missing hq
  | some q =>
    dsimp only
    have hwaiters := waiters_of_queue? hq
    have hready := ready_of_queue? hq
    by_cases hknows : q.available.knows stream = true
    · rw [if_pos hknows]
      exact .known (hwaiters ▸ Notify.knows_iff.mp hknows)
    rw [if_neg hknows]
    have hnew : stream ∉ (m.waiters s.queue).known := fun hmem =>
      hknows (Notify.knows_iff.mpr (hwaiters ▸ hmem))
    have hshelved := shelved_modifyQueue hq fun q' =>
      { q' with available := (q.available.sleepOrTake stream).1 }
    dsimp only at hshelved
    rw [← hready] at hshelved
    rcases Notify.sleepOrTake_cases q.available stream with ⟨hpermit, h⟩ | ⟨hpermit, h⟩ <;>
      rw [h] at hshelved ⊢
    · exact .took hnew (hwaiters ▸ hpermit) (hwaiters ▸ hshelved)
    · exact .lain hnew (hwaiters ▸ hpermit) (hwaiters ▸ hshelved)

/-- Without anyone between, a stream that is asked has what it found. -/
theorem next_fst (m : Memory) (stream : StreamId) : (m.next stream).1 = (m.look stream).1 := by
  unfold next
  split
  · rename_i hlooked
    rw [hlooked]
    split <;> rfl
  · rfl

theorem next_of_ne_waiting (h : (m.look stream).1 ≠ .waiting) : m.next stream = m.look stream := by
  unfold next
  split
  · rename_i hlooked
    rw [hlooked] at h
    exact absurd rfl h
  · rfl

theorem asleep_lieDown {s : Stream} (hs : m.streams[stream]? = some s)
    (hthere : m.queueExists s.queue = true) (hnew : stream ∉ (m.waiters s.queue).known)
    (hpermit : (m.waiters s.queue).permit = false) :
    stream ∈ ((m.lieDown stream).2.waiters s.queue).waiting := by
  have hlie := lain m hs
  generalize m.lieDown stream = lie at hlie
  cases hlie with
  | missing hnone => exact absurd hthere (by rw [queueExists, hnone]; decide)
  | known hknown => exact absurd hknown hnew
  | lain _ _ h =>
    rw [h.waiters]
    exact List.mem_append_right _ (List.mem_singleton_self stream)
  | took _ hkept => exact absurd (hpermit.symm.trans hkept) (by decide)

/-- A stream that has nothing when it is asked sleeps. -/
theorem asleep_next {s : Stream} (hs : m.streams[stream]? = some s)
    (hn : (m.waiters s.queue).known.Nodup) (hanswer : (m.next stream).1 = .waiting) :
    stream ∈ ((m.next stream).2.waiters s.queue).waiting := by
  rw [next_fst] at hanswer
  have hfound := found m hs
  have hkept := (look_asked hs).drawn.keeps
  unfold next
  generalize m.look stream = looked at hanswer hfound hkept ⊢
  cases hfound with
  | asleep hw =>
    have hlain : m.lieDown stream = (true, m) := by
      have h := lain m hs
      generalize m.lieDown stream = lain at h
      cases h with
      | missing | known => rfl
      | lain hnew | took hnew => exact absurd (Notify.mem_known.mpr (.inl hw)) hnew
    dsimp only
    rw [hlain]
    exact hw
  | missing => cases hanswer
  | past => cases hanswer
  | taken => cases hanswer
  | @empty m₁ hthere hw hready h =>
    have hs₁ := hkept.streams stream s hs
    have hthere₁ : m₁.queueExists s.queue = true := hkept.queues _ hthere
    have hnew : stream ∉ (m₁.waiters s.queue).known := by
      rw [h.waiters]
      exact Notify.not_mem_known_rouse hn hw
    have hlie := lain m₁ hs₁
    have hkept₁ := (same_lieDown m₁ stream).keeps
    have hasleep := asleep_lieDown hs₁ hthere₁ hnew
    dsimp only
    generalize m₁.lieDown stream = lie at hlie hkept₁ hasleep
    cases hlie with
    | missing hnone => exact absurd hthere₁ (by rw [queueExists, hnone]; decide)
    | known hknown => exact absurd hknown hnew
    | lain _ hpermit _ => exact hasleep hpermit
    | took _ _ h =>
      refine asleep_lieDown (hkept₁.streams stream s hs₁) (hkept₁.queues _ hthere₁) ?_ ?_ <;>
        rw [h.waiters]
      exact hnew

theorem tending_of_shelved {name : String} {n : Notify} {messages : List Message}
    (h : Shelved m name n messages m')
    (ht : ∀ w, who name w → Tended (polled name) w (m.waiters name) (m.ready name).length n
      messages.length []) : Tending who polled m m' := by
  refine ⟨[], by rw [h.woken, List.append_nil], fun queue => ⟨[], nofun, fun w hw => ?_⟩⟩
  by_cases hname : queue = name
  · subst hname
    rw [h.waiters, h.ready]
    exact ht w hw
  · rw [(h.others queue hname).1, (h.others queue hname).2]
    exact .none _ _

section Polls

variable {s : Stream} (hwho : ∀ w, who s.queue w → w = stream) (hpolled : polled s.queue)

include hwho hpolled

theorem tending_look (hs : m.streams[stream]? = some s) : Tending who polled m (m.look stream).2 := by
  have h := found m hs
  generalize m.look stream = answer at h
  cases h with
  | asleep => exact .refl m
  | missing => exact .refl m
  | past _ h | taken _ _ h | empty _ _ _ h =>
    refine tending_of_shelved h fun w hmine => ?_
    rw [hwho w hmine]
    exact .looked _ _ _ hpolled

theorem tending_lieDown (hs : m.streams[stream]? = some s) :
    Tending who polled m (m.lieDown stream).2 := by
  have h := lain m hs
  have hcases := Notify.sleepOrTake_cases (m.waiters s.queue) stream
  generalize m.lieDown stream = answer at h
  cases h with
  | missing => exact .refl m
  | known => exact .refl m
  | lain hnew hpermit h =>
    refine tending_of_shelved h fun w hmine => ?_
    obtain ⟨-, hlain⟩ := hcases.resolve_left fun h => absurd (hpermit.symm.trans h.1) (by decide)
    have htended : Tended (polled s.queue) stream _ _ _ _ [] :=
      .lain _ (m.ready s.queue).length hpolled hnew
    rw [hlain] at htended
    rwa [hwho w hmine]
  | took hnew hpermit h =>
    refine tending_of_shelved h fun w hmine => ?_
    obtain ⟨-, hlain⟩ := hcases.resolve_right fun h => absurd (hpermit.symm.trans h.1) (by decide)
    have htended : Tended (polled s.queue) stream _ _ _ _ [] :=
      .lain _ (m.ready s.queue).length hpolled hnew
    rw [hlain] at htended
    rwa [hwho w hmine]

theorem tending_next (hs : m.streams[stream]? = some s) : Tending who polled m (m.next stream).2 := by
  have hlook := tending_look hwho hpolled hs
  have hkept := (look_asked hs).drawn.keeps.streams stream s hs
  unfold next
  split
  · rename_i m₁ hlooked
    rw [hlooked] at hlook hkept
    have hlie := tending_lieDown hwho hpolled hkept
    have hkept' := (same_lieDown m₁ stream).keeps.streams stream s hkept
    split <;> rename_i m₂ hlain <;> rw [hlain] at hlie hkept'
    · exact hlook.trans hlie
    · exact hlook.trans (hlie.trans (tending_lieDown hwho hpolled hkept'))
  · exact hlook

end Polls

/-! ## Any activity -/

/-- An operation that may fail, and then changes nothing. -/
theorem tending_onOpen {channel : ChannelId} {result : Except TransportError Memory}
    (h : ∀ m', result = .ok m' → Tending who polled m m') :
    Tending who polled m (m.onOpen channel result).2 := by
  unfold onOpen
  cases m.openChannel? channel with
  | error e => exact .refl m
  | ok c =>
    cases result with
    | error e => exact .refl m
    | ok m' => exact h m' rfl

theorem tending_declareQueue {declaration : QueueDeclaration}
    (h : m.declareQueue declaration = .ok m') : Tending who polled m m' := by
  have hchange := declareQueue_change h
  unfold declareQueue at h
  split at h
  · split at h <;> cases h
    exact .refl m
  · rename_i hnone
    cases h
    -- nobody waits for a queue that has just been declared
    refine tending_of_shelves rfl (fun queue => ?_) fun queue => hchange.ready queue
    unfold queue? at hnone
    simp only [waiters, queue?, List.lookup_append, List.lookup_cons, List.lookup_nil]
    by_cases hname : queue = declaration.name
    · subst hname
      simp [hnone]
    · simp [beq_eq_false_iff_ne.mpr hname]

theorem tending_release (m : Memory) (channel : ChannelId) :
    Tending who polled m (m.release channel) := by
  unfold release
  split
  · exact .refl m
  · split
    · exact .refl m
    · exact (tending_of_queues rfl rfl).trans (tending_notifyAll _ _)

theorem tending_publish (m : Memory) (channel : ChannelId) (publishing : Publishing)
    (options : PublishOptions) : Tending who polled m (m.publish channel publishing options).2 := by
  rcases publish_cases m channel publishing options with ⟨e, n, h⟩ | ⟨targets, -, h⟩
  · rw [h]
    exact tending_of_queues rfl rfl
  · have hlogged : Tending who polled m { m with
        published := m.published ++ [publishing]
        lastMessageId := m.lastMessageId + 1 } := tending_of_queues rfl rfl
    rw [h]
    exact hlogged.trans (tending_pushes _ targets _)

theorem tending_deadLetter (m : Memory) (name : String) (message : Message) :
    Tending who polled m (m.deadLetter name message) := by
  unfold deadLetter
  split
  · exact .refl m
  · split
    · exact .refl m
    · exact tending_pushes m _ _

theorem tending_settledAs (m : Memory) (delivery : DeliveryId) (d : Delivery) (outcome : Outcome) :
    Tending who polled m (m.settledAs delivery d outcome) :=
  tending_of_queues rfl rfl

end Tending

/-- The activity is about this stream, if it is about one of the queue. -/
def Activity.Serves (m : Memory) (activity : Activity) (queue : String) (w : StreamId) : Prop :=
  ∀ stream s, activity.handle? = some (.stream stream) → m.streams[stream]? = some s →
    s.queue = queue → w = stream

/-- The activity asks a stream of the queue, wholly or in part. -/
def Activity.Polls (m : Memory) (activity : Activity) (queue : String) : Prop :=
  ∃ stream s, activity.polls? = some stream ∧ m.streams[stream]? = some s ∧ s.queue = queue

theorem tending_act (m : Memory) (activity : Activity) :
    Tending (activity.Serves m) (activity.Polls m) m (m.act activity) := by
  cases activity with
  | failNextPublishes count => exact tending_of_queues rfl rfl
  | passTime now => exact tending_of_queues rfl rfl
  | ask stream =>
    rw [act]
    cases hs : m.streams[stream]? with
    | none =>
      rw [next_of_none hs]
      exact .refl m
    | some s =>
      exact tending_next (fun w hw => hw stream s rfl hs rfl) ⟨stream, s, rfl, hs, rfl⟩ hs
  | look stream =>
    rw [act]
    cases hs : m.streams[stream]? with
    | none =>
      rw [look_of_none hs]
      exact .refl m
    | some s =>
      exact tending_look (fun w hw => hw stream s rfl hs rfl) ⟨stream, s, rfl, hs, rfl⟩ hs
  | lieDown stream =>
    rw [act]
    cases hs : m.streams[stream]? with
    | none =>
      rw [lieDown, hs]
      exact .refl m
    | some s =>
      exact tending_lieDown (fun w hw => hw stream s rfl hs rfl) ⟨stream, s, rfl, hs, rfl⟩ hs
  | request r =>
    cases r with
    | openChannel => exact tending_of_queues rfl rfl
    | confirmSelect channel =>
      simp only [act, answer, confirmSelect]
      cases m.openChannel? channel <;> exact tending_of_queues rfl rfl
    | declareExchange channel name kind durable =>
      refine tending_onOpen fun m' hm => ?_
      unfold declareExchange at hm
      split at hm
      · split at hm <;> cases hm
        exact .refl m
      · cases hm
        exact tending_of_queues rfl rfl
    | declareQueue channel declaration => exact tending_onOpen fun m' => tending_declareQueue
    | bindQueue channel name exchange routingKey arguments =>
      refine tending_onOpen fun m' hm => ?_
      unfold bindQueue at hm
      split at hm
      · cases hm
      · split at hm <;> cases hm
        split
        · exact .refl m
        · exact tending_of_queues rfl rfl
    | qos channel prefetch =>
      refine tending_onOpen fun m' hm => ?_
      cases hm
      exact .refl m
    | publish channel publishing options => exact tending_publish m channel publishing options
    | consume channel queue exclusive =>
      simp only [act, answer, consume]
      cases m.openChannel? channel with
      | error e => exact .refl m
      | ok c => cases m.queueExists queue <;> exact tending_of_queues rfl rfl
    | close channel => exact tending_release m channel
    | dropChannel channel => exact tending_release m channel
    | dropStream stream =>
      simp only [act, answer, dropStream]
      cases hs : m.streams[stream]? with
      | none => exact .refl m
      | some s =>
        refine tending_notify m s.queue fun w hw n => ?_
        rw [hw stream s rfl hs rfl]
        exact .abandoned n _
    | ack delivery =>
      simp only [act, answer]
      rcases gone_or_unsettled m delivery with hgone | ⟨d, hd, hs⟩
      · rw [ack_of_gone hgone]
        exact .refl m
      · rw [ack_of_unsettled hd hs]
        exact tending_settledAs m delivery d _
    | nack delivery requeue =>
      simp only [act, answer]
      rcases gone_or_unsettled m delivery with hgone | ⟨d, hd, hs⟩
      · rw [nack_of_gone hgone]
        exact .refl m
      · cases requeue with
        | true =>
          rw [requeue_of_unsettled hd hs]
          exact (tending_settledAs m delivery d _).trans (tending_requeue _ _ _)
        | false =>
          rw [reject_of_unsettled hd hs]
          exact (tending_settledAs m delivery d _).trans (tending_deadLetter _ _ _)

end Courier.Memory
