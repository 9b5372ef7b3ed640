import Courier.Memory.Broker

/-!
# The ready messages of a queue

What the operations on queues do to the messages that are ready (`ready?`), and that they do nothing
else: `frame` is all of a broker but its queues and whom it woke, and `Same` brokers differ in
wake-ups only.
-/

namespace Courier.Memory

variable {m m' m₁ m₂ m₃ : Memory} {name queue : String}

/-- The ready messages of a queue, if there is one of this name. -/
def ready? (m : Memory) (queue : String) : Option (List Message) :=
  (m.queue? queue).map (·.messages)

/-- All of a broker but its queues and whom it woke. -/
def frame (m : Memory) : Memory :=
  { m with queues := [], woken := [] }

@[simp] theorem exchanges_frame (m : Memory) : m.frame.exchanges = m.exchanges := rfl

@[simp] theorem bindings_frame (m : Memory) : m.frame.bindings = m.bindings := rfl

@[simp] theorem published_frame (m : Memory) : m.frame.published = m.published := rfl

@[simp] theorem lastMessageId_frame (m : Memory) : m.frame.lastMessageId = m.lastMessageId := rfl

@[simp] theorem streams_frame (m : Memory) : m.frame.streams = m.streams := rfl

@[simp] theorem deliveries_frame (m : Memory) : m.frame.deliveries = m.deliveries := rfl

/-- The brokers differ in wake-ups only. -/
structure Same (m m' : Memory) : Prop where
  frame : m'.frame = m.frame
  ready : ∀ queue, m'.ready? queue = m.ready? queue

theorem Same.refl (m : Memory) : Same m m :=
  ⟨rfl, fun _ => rfl⟩

theorem Same.trans (h₁ : Same m₁ m₂) (h₂ : Same m₂ m₃) : Same m₁ m₃ :=
  ⟨h₂.frame.trans h₁.frame, fun queue => (h₂.ready queue).trans (h₁.ready queue)⟩

/-- What is found under each name when the entry of one is changed. -/
theorem lookup_map_at {α : Type} (entries : List (String × α)) (name : String) (f : α → α)
    (other : String) :
    (entries.map fun (n, a) => if n = name then (n, f a) else (n, a)).lookup other =
      if other = name then (entries.lookup other).map f else entries.lookup other := by
  induction entries with
  | nil => split <;> rfl
  | cons entry rest ih =>
    obtain ⟨n, a⟩ := entry
    have hhead : (if n = name then (n, f a) else (n, a)).1 = n := by split <;> rfl
    rw [List.map_cons, List.lookup_cons, List.lookup_cons, hhead]
    by_cases hother : other = n
    · subst hother
      by_cases hname : other = name <;> simp [hname]
    · rw [beq_eq_false_iff_ne.mpr hother]
      exact ih

theorem queue?_modifyQueue (m : Memory) (name : String) (f : Queue → Queue) (queue : String) :
    (m.modifyQueue name f).queue? queue =
      if queue = name then (m.queue? queue).map f else m.queue? queue :=
  lookup_map_at m.queues name f queue

theorem ready?_modifyQueue (m : Memory) (name : String) {f : Queue → Queue}
    {g : List Message → List Message} (h : ∀ q : Queue, (f q).messages = g q.messages)
    (queue : String) :
    (m.modifyQueue name f).ready? queue =
      if queue = name then (m.ready? queue).map g else m.ready? queue := by
  simp only [ready?, queue?_modifyQueue]
  split
  · rw [Option.map_map, Option.map_map]
    exact congrArg (Option.map · (m.queue? queue)) (funext h)
  · rfl

/-- Wake-ups concern no message. -/
theorem same_modifyQueue (m : Memory) (name : String) {f : Queue → Queue}
    (h : ∀ q : Queue, (f q).messages = q.messages) : Same m (m.modifyQueue name f) := by
  refine ⟨rfl, fun queue => ?_⟩
  rw [ready?_modifyQueue (g := id) m name h]
  split
  · exact Option.map_id_apply
  · rfl

theorem same_notify (m : Memory) (name : String) (f : Notify → Notify × List Nat) :
    Same m (m.notify name f) := by
  unfold notify
  split
  · exact .refl m
  · rename_i q _
    have h := same_modifyQueue m name (f := fun q' => { q' with available := (f q.available).1 })
      fun _ => rfl
    exact ⟨h.frame, h.ready⟩

theorem frame_push (m : Memory) (name : String) (message : Message) :
    (m.push name message).frame = m.frame :=
  (same_notify _ name _).frame

theorem ready?_push (m : Memory) (name : String) (message : Message) (queue : String) :
    (m.push name message).ready? queue =
      if queue = name then (m.ready? queue).map (· ++ [message]) else m.ready? queue := by
  rw [push, (same_notify _ name _).ready]
  exact ready?_modifyQueue m name (g := (· ++ [message])) (fun _ => rfl) queue

theorem frame_requeue (m : Memory) (name : String) (message : Message) :
    (m.requeue name message).frame = m.frame :=
  (same_notify _ name _).frame

theorem ready?_requeue (m : Memory) (name : String) (message : Message) (queue : String) :
    (m.requeue name message).ready? queue =
      if queue = name then (m.ready? queue).map (message :: ·) else m.ready? queue := by
  rw [requeue, (same_notify _ name _).ready]
  exact ready?_modifyQueue m name (g := (message :: ·)) (fun _ => rfl) queue

/-- Copies of a message are appended to the queues. -/
theorem frame_pushes (m : Memory) (targets : List String) (message : Message) :
    (targets.foldl (fun m target => m.push target message) m).frame = m.frame := by
  induction targets generalizing m with
  | nil => rfl
  | cons target targets ih => rw [List.foldl_cons, ih, frame_push]

theorem ready?_pushes (m : Memory) (targets : List String) (message : Message) (queue : String) :
    (targets.foldl (fun m target => m.push target message) m).ready? queue =
      (m.ready? queue).map (· ++ List.replicate (targets.count queue) message) := by
  induction targets generalizing m with
  | nil => simp
  | cons target targets ih =>
    rw [List.foldl_cons, ih, ready?_push]
    by_cases h : queue = target
    · subst h
      simp [Option.map_map, Function.comp_def, List.replicate_succ]
    · rw [if_neg h, List.count_cons_of_ne (Ne.symm h)]

theorem ready?_pop {message : Message} (h : m.pop name = some (message, m')) :
    ∃ rest, m.ready? name = some (message :: rest) ∧ m'.frame = m.frame ∧
      ∀ queue, m'.ready? queue = if queue = name then some rest else m.ready? queue := by
  unfold pop at h
  split at h
  · cases h
  · rename_i q hq
    split at h
    · cases h
    · rename_i message' rest hmessages
      cases h
      refine ⟨rest, by rw [ready?, hq, Option.map_some, hmessages], rfl, fun queue => ?_⟩
      rw [ready?_modifyQueue m name (g := fun _ => rest) (fun _ => rfl)]
      split
      · rename_i heq
        rw [heq, ready?, hq]
        rfl
      · rfl

end Courier.Memory
