import Courier.Proofs.Brokerage.Running

/-!
# All events

Beside a task that goes on, calls come, guards are used and dropped, calls are let go of, and tokens
are made and cancelled. `step_stepped` says of each what it does, and `good_after` what therefore
holds after all of them in any order.
-/

namespace Courier.Brokerage

variable {broker : Broker} {config : PoolConfig} {s s' : System} {i : Nat} {task task' : Task}

/-! ## Calls -/

/-- Every call keeps to the protocol. -/
theorem obeys_program (broker : Broker) (call : Call) :
    (call.program broker).Obeys Moves (Ended (some call)) call.hand := by
  cases call with
  | acquire g cancel =>
    refine ⟨⟨_, _, .refused .cancelled⟩, fun a hand hm => ?_⟩
    cases hm with
    | refused e => exact ⟨rfl, .inr ⟨_, rfl⟩⟩
    | lent number publisher => exact ⟨⟨g, number, rfl⟩, .inr ⟨_, rfl⟩⟩
  | publish g cancel destination body =>
    exact ((obeys_pooling (obeys_publish g cancel ⟨destination, body⟩)).mono fun result hand hat =>
      ⟨hat, .inr ⟨result, rfl⟩⟩).bind
  | closePool g =>
    exact ((obeys_pooling (obeys_closePool g)).mono fun _ hand hat =>
      ⟨⟨_, _, hat, by simp⟩, .inr rfl⟩).bind
  | shutdown =>
    exact (obeys_shutdown.mono fun _ hand hat => ⟨⟨_, _, hat, by simp⟩, .inr rfl⟩).bind

theorem Call.held_hand (call : Call) : call.hand.held = [] := by
  cases call <;> rfl

/-- A call has closed nothing to begin with. -/
theorem Call.heard_hand (call : Call) {task : Task} (hhand : task.hand = call.hand) :
    task.Heard s := by
  intro stopped shut hrole
  rw [hhand] at hrole
  cases call <;> cases hrole <;> exact ⟨nofun, nofun⟩

theorem Call.cancel_of_hand {call : Call} {g : Guarantee} {cancel : TokenId}
    (h : call.hand.role = .asking g cancel) : call.cancel? = some cancel := by
  cases call <;> cases h <;> rfl

theorem stepped_start (h : Good broker config s) (call : Call) :
    Stepped broker s.tasks.length s (s.start broker call) := by
  have hnone : s.tasks[s.tasks.length]? = none := List.getElem?_eq_none (Nat.le_refl _)
  unfold System.start
  split
  · rename_i hexists
    have hunknown : ∀ g, s.tasks.length ∉ (s.pools g).available.known := fun g hmem => by
      obtain ⟨task, cancel, hget, -⟩ := h.callers g _ hmem
      rw [hnone] at hget
      cases hget
    refine ⟨moved_of_same ?_ (fun g => .refl _) rfl,
      fun g => ⟨[], fun x hx => absurd hx List.not_mem_nil, ?_⟩,
      fun x _ hlt => List.getElem?_append_left hlt, fun g x _ => lookAt_spawn rfl g x,
      fun x task hget hx => ?_,
      heeded_of_tokens rfl fun x _ hmem => (mem_ready_wake ..).mpr (.inl hmem),
      fun g hmem => absurd hmem (hunknown g)⟩
    · have hlodgings : call.hand.lodgings = [] := Hand.lodgings_of_none call.held_hand
      show List.Perm ((s.tasks ++ [_]).flatMap _ ++ _) _
      rw [List.flatMap_append, List.flatMap_singleton, hlodgings, List.append_nil]
      exact .rfl
    · rw [lookAt_spawn rfl]
      exact .none
    · have hlt := (List.getElem?_eq_some_iff.mp hget).1
      change x < (s.tasks ++ [_]).length at hlt
      change (s.tasks ++ [_])[x]? = some task at hget
      obtain rfl : x = s.tasks.length := by
        simp only [List.length_append, List.length_singleton] at hlt
        omega
      rw [List.getElem?_append_right (Nat.le_refl _), Nat.sub_self] at hget
      obtain rfl := Option.some.inj hget
      refine ⟨⟨obeys_program broker call, fun g cancel _ => ⟨rfl, call, rfl, rfl, rfl⟩⟩,
        fun g cancel hrole => ?_, call.heard_hand rfl,
        .inl ((mem_ready_wake ..).mpr (.inr (List.mem_singleton_self _)))⟩
      rw [Call.cancel_of_hand hrole] at hexists
      have hlt : cancel < s.tokens.tokens.length := of_decide_eq_true hexists
      exact hlt
  · exact h.stepped_nobody hnone rfl rfl rfl rfl (.refl _ s)

/-! ## Guards -/

/-- What is left of a publisher when a publish is let go of, and of its channel. -/
theorem channels_leftBy (first : Held) (r : Transport.Request) {channels others : List ChannelId}
    (hp : channels.Perm (first.channel.toList ++ others)) :
    (if (first.leftBy r).channel = first.channel then channels
      else channels.diff first.channel.toList).Perm ((first.leftBy r).channel.toList ++ others) := by
  by_cases hsame : (first.leftBy r).channel = first.channel
  · rw [if_pos hsame, hsame]
    exact hp
  · rw [if_neg hsame]
    obtain ⟨g, number, channel⟩ := first
    have hnone : (Held.leftBy ⟨g, number, channel⟩ r).channel = none := by
      unfold Held.leftBy at hsame ⊢
      split at hsame
      · exact absurd rfl hsame
      · rfl
    rw [hnone]
    exact perm_of_diff hp

theorem Held.leftBy_eq (first : Held) (r : Transport.Request) :
    first.leftBy r = { first with channel := (first.leftBy r).channel } := by
  unfold Held.leftBy
  split <;> rfl

/-- A task lets go of its publisher. -/
theorem stepped_giveBack (h : Good broker config s) (hget : s.tasks[i]? = some task) {first : Held}
    (hhand : task.hand = ⟨.borrowing, [first]⟩) {channel : Option ChannelId}
    {channels : List ChannelId} (hchannels : ∀ others, s.channels.Perm (first.channel.toList ++ others) →
      channels.Perm (channel.toList ++ others)) {publisher : ChannelPublisher}
    (hp : publisher.channel = channel) :
    Stepped broker i s
      ({ s with channels }.giveBack i task { first with channel } publisher) :=
  stepped_talk h hget hhand rfl rfl rfl rfl (fun _ => (mem_ready_wake ..).mpr) hchannels rfl
    ((obeys_pooling (obeys_release rfl hp)).mono fun _ _ hat => ⟨hat, .inl rfl⟩).bind

/-- Who has got something has asked for it. -/
theorem Ended.acquired {call : Option Call} {result : Except PublishError ChannelPublisher}
    {hand : Hand} (h : Ended call (.acquired result) hand)
    (result' : Except PublishError ChannelPublisher) :
    Call.Comes call (.acquired result') := by
  rcases h.2 with hgone | hcomes
  · cases hgone
  · match call, hcomes with
    | some (.acquire ..), _ => exact ⟨result', rfl⟩
    | some (.publish ..), ⟨_, h⟩ => cases h

/-- A task that has got a publisher and is done holds it. -/
theorem Good.hand_of_acquired (h : Good broker config s) (hget : s.tasks[i]? = some task)
    {publisher : ChannelPublisher} (hrest : task.rest = .done (.acquired (.ok publisher))) :
    (∃ first : Held, task.hand = ⟨.borrowing, [first]⟩ ∧ publisher.channel = first.channel) ∧
      ∀ result, Call.Comes task.call (.acquired result) := by
  have hat := (h.kept task (List.mem_of_getElem? hget)).obeys
  rw [hrest] at hat
  replace hat : Ended task.call (.acquired (.ok publisher)) task.hand := hat
  obtain ⟨g, number, hhand⟩ : ∃ g number, task.hand = ⟨.borrowing, [⟨g, number, publisher.channel⟩]⟩ :=
    hat.1
  exact ⟨⟨_, hhand, rfl⟩, hat.acquired⟩

/-- Nothing happens. -/
theorem Good.stepped_self (h : Good broker config s) (i : Nat) : Stepped broker i s s where
  moved := moved_of_same .rfl (fun _ => .refl _) rfl
  operated _ := ⟨[], fun _ hx => absurd hx List.not_mem_nil, .none⟩
  others _ _ _ := rfl
  looks _ _ _ := rfl
  itself x task hget _ :=
    ⟨h.kept task (List.mem_of_getElem? hget), h.tokens task (List.mem_of_getElem? hget),
      h.heard task (List.mem_of_getElem? hget), h.settled x task hget⟩
  heeded := .refl i s
  known g hmem := ⟨h.roused g i, h.callers g i hmem⟩

theorem stepped_send (h : Good broker config s) (i : Nat) (publishing : Publishing) :
    Stepped broker i s (s.send i publishing) := by
  unfold System.send
  split
  · rename_i task hget
    split
    · rename_i publisher hrest
      obtain ⟨⟨first, hhand, hp⟩, hcomes⟩ := h.hand_of_acquired hget hrest
      refine stepped_talk h hget hhand rfl rfl rfl rfl (fun _ => (mem_ready_wake ..).mpr)
        (fun _ hp => hp) hhand ?_
      have hsend := (obeys_send publisher publishing).mono fun sent channel hsent =>
        (⟨first.guarantee, first.number, by rw [hsent]⟩ : ∃ g number,
          (⟨.borrowing, [{ first with channel }]⟩ : Hand) =
            ⟨.borrowing, [⟨g, number, sent.2.channel⟩]⟩)
      rw [hp] at hsend
      exact ((obeys_pooling (obeys_session .borrowing first [] hsend)).mono fun sent _ hat =>
        ⟨hat, .inr (hcomes _)⟩).bind
    · exact h.stepped_self i
  · exact h.stepped_self i

theorem stepped_drop (h : Good broker config s) (i : Nat) :
    Stepped broker i s (s.drop i) := by
  unfold System.drop
  split
  · rename_i task hget
    split
    · rename_i publisher first _ hrest hheld
      obtain ⟨⟨first', hhand, hp⟩, -⟩ := h.hand_of_acquired hget hrest
      rw [hhand] at hheld
      cases hheld
      exact stepped_giveBack h hget hhand (fun _ hp => hp) hp
    · exact h.stepped_self i
  · exact h.stepped_self i

theorem stepped_abort (h : Good broker config s) (i : Nat) :
    Stepped broker i s (s.abort i) := by
  unfold System.abort
  split
  · rename_i task hget
    split
    · rename_i g cancel _ hrest
      split
      swap
      · exact h.stepped_self i
      rename_i hlook
      have hobeys := (h.kept task (List.mem_of_getElem? hget)).obeys
      rw [hrest] at hobeys
      obtain ⟨_, _, hallowed⟩ := hobeys.allowed
      have hhand : task.hand = ⟨.asking g cancel, []⟩ := by
        generalize task.hand = hand at hallowed
        cases hallowed <;> rfl
      refine h.stepped_off hget (congrArg Hand.role hhand) rfl nofun rfl
        (fun x hx => (mem_ready_wake ..).mpr (.inr hx)) (by rw [hlook]; exact .abandon)
        (Notify.not_mem_known_abandon (h.fair g).nodup i)
        (Task.fits_of_plain nofun nofun ⟨rfl, .inl rfl⟩ (.inr (.ended rfl nofun)))
        (moved_alike hget (congrArg Hand.held hhand) rfl rfl (Pool.alike_abandon ..) rfl rfl rfl)
        (heeded_unregister rfl fun x hx hmem => ?_)
      exact (mem_ready_wake ..).mpr (.inl ((mem_ready_rest ..).mpr ⟨hmem, hx⟩))
    · rename_i r _ first hrest hhand
      have hleft := stepped_giveBack h hget hhand (fun _ => channels_leftBy first r)
        (rfl : { ChannelPublisher.of first.guarantee with
          channel := (first.leftBy r).channel }.channel = _)
      rw [← first.leftBy_eq r] at hleft
      exact hleft
    · exact h.stepped_self i
  · exact h.stepped_self i

/-! ## Any event -/

/-- The task that an event is about, if there is one. -/
def Event.task? : Event → Option Nat
  | .run i _ | .send i _ | .drop i | .abort i => some i
  | _ => none

/-- There are more tokens now. -/
theorem heeded_grown {tokens : Tokens} (hgrown : Tokens.Grown s.tokens tokens)
    (htokens : s' = { s with tokens }) : Heeded i s s' := by
  subst htokens
  exact ⟨fun _ _ hmem => hmem, fun id hid => Nat.lt_of_lt_of_le hid hgrown.length,
    fun id hid hc => (hgrown.isCancelled hid).trans hc, fun id x _ hl => .inl (hgrown.listening hl)⟩

theorem step_stepped (h : Good broker config s) (e : Event) :
    Stepped broker (e.task?.getD s.tasks.length) s (s.step broker e) := by
  have hnone : s.tasks[s.tasks.length]? = none := List.getElem?_eq_none (Nat.le_refl _)
  cases e with
  | start call => exact stepped_start h call
  | run i w => exact stepped_run h i w
  | send i publishing => exact stepped_send h i publishing
  | drop i => exact stepped_drop h i
  | abort i => exact stepped_abort h i
  | arrive i =>
    simp only [System.step, System.arrive]
    split
    · exact h.stepped_nobody hnone rfl rfl rfl rfl
        (heeded_of_tokens rfl fun x _ hmem => (mem_ready_wake ..).mpr (.inl hmem))
    · exact h.stepped_self _
  | cancel token => exact h.stepped_nobody hnone rfl rfl rfl rfl (heeded_cancel _ s token)
  | newToken =>
    have hgrown := Tokens.grown_add s.tokens
    exact h.stepped_nobody hnone rfl rfl rfl rfl (heeded_grown hgrown rfl)
  | childToken parent =>
    have hgrown := Tokens.grown_addChild s.tokens parent
    exact h.stepped_nobody hnone rfl rfl rfl rfl (heeded_grown hgrown rfl)

theorem Good.after (h : Good broker config s) (events : List Event) :
    Good broker config (s.after broker events) := by
  induction events generalizing s with
  | nil => exact h
  | cons e events ih => exact ih (h.stepped (step_stepped h e))

theorem good_after (broker : Broker) (config : PoolConfig) (events : List Event) :
    Good broker config ((System.new config).after broker events) :=
  (good_new broker config).after events

end Courier.Brokerage
