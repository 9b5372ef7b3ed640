import Courier.Proofs.Memory.Topology
import Courier.Proofs.Memory.Waiting

/-!
# Streams that do not end

A stream is made only of a queue that there is (`streamed_act`), and queues stay. So every stream of a
broker reads a queue that there is (`queueExists_after`), and one that is asked while its channel is
open has a message or waits (`next_of_open`): it ends with its channel, and no sooner.
-/

namespace Courier.Memory

variable {m m' : Memory}

/-- The streams are the same, or there is one more, of a queue that there is. -/
inductive Streamed (m : Memory) : List Stream → Prop where
  | same : Streamed m m.streams
  | added {s : Stream} (h : m.queueExists s.queue = true) : Streamed m (m.streams ++ [s])

theorem streams_of_frame (h : m'.frame = m.frame) : m'.streams = m.streams := by
  simpa using congrArg Memory.streams h

theorem streams_release (m : Memory) (channel : ChannelId) :
    (m.release channel).streams = m.streams := by
  unfold release
  split
  · rfl
  · split
    · rfl
    · exact (streams_of_frame (same_notifies Notify.notifyAll _ _).frame).trans rfl

theorem streams_publish (m : Memory) (channel : ChannelId) (publishing : Publishing)
    (options : PublishOptions) : (m.publish channel publishing options).2.streams = m.streams := by
  rcases publish_cases m channel publishing options with ⟨e, n, h⟩ | ⟨targets, -, h⟩
  · rw [h]
  · rw [h]
    simpa using congrArg Memory.streams (frame_accept m publishing targets)

theorem streams_settle {delivery : DeliveryId} {outcome : Outcome} {d : Delivery}
    (h : m.settle delivery outcome = .ok (d, m')) : m'.streams = m.streams := by
  unfold settle at h
  split at h
  · cases h
  · split at h <;> cases h
    rfl

theorem streams_nack (m : Memory) (delivery : DeliveryId) (requeue : Bool) :
    (answer (.nack delivery requeue) m).2.streams = m.streams := by
  simp only [answer, nack]
  cases hs : m.settle delivery (.nack requeue) with
  | error e => rfl
  | ok settled =>
    obtain ⟨d, m₁⟩ := settled
    have hreturned : (m₁.deadLetter d.queue d.message).frame = m₁.frame :=
      (returned_deadLetter m₁ d.queue d.message).frame
    cases requeue with
    | true => exact (streams_of_frame (frame_requeue m₁ d.queue d.message)).trans (streams_settle hs)
    | false => exact (streams_of_frame hreturned).trans (streams_settle hs)

theorem streamed_answer (r : Transport.Request) (m : Memory) : Streamed m (answer r m).2.streams := by
  have same : ∀ {streams : List Stream}, streams = m.streams → Streamed m streams :=
    fun h => h ▸ .same
  have onOpen : ∀ {channel : ChannelId} {result : Except TransportError Memory},
      (∀ m', result = .ok m' → m'.streams = m.streams) →
      Streamed m (m.onOpen channel result).2.streams :=
    fun h => same (onOpen_elim (P := fun m' => m'.streams = m.streams) rfl h)
  cases r with
  | consume channel queue exclusive =>
    simp only [answer, consume]
    cases m.openChannel? channel with
    | error e => exact .same
    | ok c =>
      cases hq : m.queueExists queue with
      | false => exact .same
      | true => exact .added hq
  | declareExchange channel name kind durable =>
    refine onOpen fun m' hm => ?_
    obtain ⟨-, rfl⟩ | ⟨-, rfl⟩ := declareExchange_eq_ok hm <;> rfl
  | declareQueue channel declaration =>
    refine onOpen fun m' hm => ?_
    obtain ⟨-, rfl⟩ | ⟨-, rfl⟩ := declareQueue_eq_ok hm <;> rfl
  | bindQueue channel name exchange routingKey arguments =>
    refine onOpen fun m' hm => ?_
    obtain ⟨-, -, ⟨-, rfl⟩ | ⟨-, rfl⟩⟩ := bindQueue_eq_ok hm <;> rfl
  | qos channel prefetch => exact onOpen fun m' hm => by cases hm; rfl
  | openChannel => exact .same
  | confirmSelect channel =>
    refine unchangedOnError_elim (P := fun m' => Streamed m m'.streams) .same fun m' hm => ?_
    obtain ⟨c, -, rfl⟩ := confirmSelect_eq_ok hm
    exact .same
  | publish channel publishing options => exact same (streams_publish m channel publishing options)
  | close channel => exact same (streams_release m channel)
  | dropChannel channel => exact same (streams_release m channel)
  | dropStream stream =>
    simp only [answer, dropStream]
    split
    · exact .same
    · exact same (streams_of_frame (same_notify m _ _).frame)
  | ack delivery =>
    refine unchangedOnError_elim (P := fun m' => Streamed m m'.streams) .same fun m' hm => ?_
    unfold ack at hm
    cases hs : m.settle delivery .ack with
    | error e => rw [hs] at hm; cases hm
    | ok settled =>
      rw [hs] at hm
      cases hm
      exact same (streams_settle hs)
  | nack delivery requeue => exact same (streams_nack m delivery requeue)

theorem Drawn.streams (h : Drawn m m') : m'.streams = m.streams := by
  cases h with
  | nothing hs => exact streams_of_frame hs.frame
  | message _ hframe _ => simpa using congrArg Memory.streams hframe

theorem streamed_act (m : Memory) (activity : Activity) :
    Streamed m (m.act activity).streams := by
  have hdrawn := @drawn_act m activity
  cases activity with
  | request r => exact streamed_answer r m
  | ask stream | look stream | lieDown stream =>
    rw [(hdrawn rfl).streams]
    exact .same
  | failNextPublishes count => exact .same
  | passTime now => exact .same

/-- Every stream reads a queue that there is. -/
theorem lasting_streams : Lasting fun m => ∀ s ∈ m.streams, m.queueExists s.queue = true := by
  intro m activity h s hs
  refine (keeps_act m activity).queues s.queue ?_
  have hstreamed := streamed_act m activity
  generalize (m.act activity).streams = streams at hs hstreamed
  cases hstreamed with
  | same => exact h s hs
  | added hexists =>
    rcases List.mem_append.mp hs with hs | hs
    · exact h s hs
    · rwa [List.mem_singleton.mp hs]

/-- Whatever befalls a broker, the queue of a stream is there. -/
theorem queueExists_after (activities : List Activity) :
    ∀ s ∈ (({} : Memory).after activities).streams,
      (({} : Memory).after activities).queueExists s.queue = true :=
  lasting_streams.after (fun _ hs => by cases hs) activities

/-- A stream whose channel is open and whose queue is there has not ended. -/
theorem next_of_open {stream : StreamId} {s : Stream} (hget : m.streams[stream]? = some s)
    (hexists : m.queueExists s.queue = true) (hopen : m.isClosed s.channel = false) :
    (m.next stream).1 = .waiting ∨
      ∃ message, (m.next stream).1 = .delivered m.deliveries.length message := by
  have hfound := found m hget
  rw [next_fst]
  generalize m.look stream = answer at hfound ⊢
  cases hfound with
  | asleep => exact .inl rfl
  | empty => exact .inl rfl
  | taken => exact .inr ⟨_, rfl⟩
  | missing hnone =>
    rw [queueExists, hnone] at hexists
    cases hexists
  | past hclosed =>
    rw [hopen] at hclosed
    cases hclosed

end Courier.Memory
