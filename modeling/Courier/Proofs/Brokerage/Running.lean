import Courier.Proofs.Brokerage.Relocation
import Courier.Proofs.Brokerage.Steps

/-!
# A task goes on

What one request of a task does, whichever it is: `stepped_run`. The request is one that the protocol
allows where the task stands, so each kind of request finds the task with what it needs.
-/

namespace Courier.Brokerage

variable {broker : Broker} {config : PoolConfig} {s s' : System} {i : Nat} {task task' : Task}
  {w : Surroundings} {g : Guarantee}

theorem System.run_eq {r : Service.Request} {next : Requests.Answer r → Service.Action Result}
    (hget : s.tasks[i]? = some task) (hrest : task.rest = .ask r next) :
    s.run i w =
      match s.answer i task w r with
      | (.waits, s) => s.rest i
      | (.goesOn task, s) => (s.setTask i task).wake [i]
      | (.answered a task, s) => (s.setTask i { task with rest := next a }).wake [i] := by
  cases hanswer : s.answer i task w r with
  | mk answer s' => cases answer <;> simp only [System.run, hget, hrest, hanswer]

/-- A task that has something asks for no publisher. -/
theorem Task.Kept.not_asking (h : task.Kept broker) {role : Role} {first : Held} {rest : List Held}
    (hhand : task.hand = ⟨role, first :: rest⟩) (g : Guarantee) (cancel : TokenId) :
    task.hand.role ≠ .asking g cancel := by
  intro hrole
  obtain ⟨-, call, -, hcall, -⟩ := h.fresh g cancel hrole
  rw [hhand] at hcall
  cases call <;> cases hcall

/-! ## Talking to the connection -/

theorem Talk.heard {h : Held} {r : Transport.Request} {a : Requests.Answer r}
    {channel : Option ChannelId} (ht : Talk h.channel r a channel) :
    h.heard r a = { h with channel } := by
  obtain ⟨g, number, before⟩ := h
  cases ht <;> rfl

/-- Whatever the connection answers, it goes on. -/
theorem Talk.answered {before after : Option ChannelId} {r : Transport.Request}
    {a : Requests.Answer r} (ht : Talk before r a after) (a' : Requests.Answer r) :
    ∃ after', Talk before r a' after' := by
  cases ht with
  | opened | unopened =>
    cases a' with
    | ok channel => exact ⟨_, .opened channel⟩
    | error e => exact ⟨_, .unopened e⟩
  | confirming channel => exact ⟨_, .confirming channel a'⟩
  | publishing channel publishing options => exact ⟨_, .publishing channel publishing options a'⟩
  | closing channel => exact ⟨_, .closing channel a'⟩
  | letGo channel => exact ⟨_, .letGo channel⟩

/-- The open channels follow. -/
theorem Talk.channels {before after : Option ChannelId} {r : Transport.Request}
    {a : Requests.Answer r} (ht : Talk before r a after) {channels others : List ChannelId}
    (hp : channels.Perm (before.toList ++ others)) :
    (openAfter channels r a).Perm (after.toList ++ others) := by
  cases ht with
  | opened channel => exact hp.cons channel
  | letGo channel =>
    have herase := hp.erase channel
    rwa [Option.toList_some, List.singleton_append, List.erase_cons_head] at herase
  | unopened | confirming | publishing | closing => exact hp

/-- A task that waits, and has nothing to do with the pools, leaves all as it is. -/
theorem stepped_rest (h : Good broker config s) (hget : s.tasks[i]? = some task)
    (hrole : ∀ g cancel, task.hand.role ≠ .asking g cancel) (hrests : Rests s i task) :
    Stepped broker i s (s.rest i) := by
  have hself : s.tasks.set i task = s.tasks := by
    obtain ⟨hlt, hself⟩ := List.getElem?_eq_some_iff.mp hget
    rw [← hself, List.set_getElem_self]
  have hobeys := (h.kept task (List.mem_of_getElem? hget)).obeys
  have hrests' : Rests (s.rest i) i task := by
    cases hrests with
    | talks h => exact .talks h
    | sleeps hrole' => exact absurd hrole' (hrole _ _)
    | ended h hrole => exact .ended h hrole
  exact h.stepped_alone hget hrole hself.symm hrole
    (Task.fits_of_role hrole hobeys (h.heard task (List.mem_of_getElem? hget)) (.inr hrests'))
    (moved_of_same .rfl (fun g => .refl _) rfl) (passed_of_pools rfl)
    (heeded_of_tokens rfl fun x hx hmem => (mem_ready_rest ..).mpr ⟨hmem, hx⟩)

/-- The publisher at work opens a channel or lets go of it, or neither, and the task goes on. -/
theorem stepped_talk (h : Good broker config s) (hget : s.tasks[i]? = some task) {role : Role}
    {first : Held} {rest : List Held} {channel : Option ChannelId}
    (hhand : task.hand = ⟨role, first :: rest⟩) (htasks : s'.tasks = s.tasks.set i task')
    (hpools : s'.pools = s.pools) (hretired : s'.retired = s.retired)
    (htokens : s'.tokens = s.tokens) (hready : ∀ x, x ∈ s.ready ∨ x ∈ [i] → x ∈ s'.ready)
    (hchannels : ∀ others, s.channels.Perm (first.channel.toList ++ others) →
      s'.channels.Perm (channel.toList ++ others))
    (hhand' : task'.hand = ⟨role, { first with channel } :: rest⟩)
    (hobeys : task'.rest.Obeys Moves (Ended task'.call) ⟨role, { first with channel } :: rest⟩) :
    Stepped broker i s s' := by
  have hrole := (h.kept task (List.mem_of_getElem? hget)).not_asking hhand
  have hrole' : ∀ g cancel, task'.hand.role ≠ .asking g cancel := by
    rw [hhand] at hrole
    rw [hhand']
    exact hrole
  obtain ⟨others, hbefore, hafter⟩ := lodgings_focus hget .atLeastOnce
  have hlodgings := hafter s' task' [] _ (htasks.trans (List.append_nil _).symm)
    (hpools.trans (Function.update_eq_self ..).symm)
  have hheeded : Heeded i s s' := heeded_of_tokens htokens fun x _ hmem => hready x (.inl hmem)
  have hheard : task'.Heard s' := ((h.heard task (List.mem_of_getElem? hget)).mono h.there hheeded
    fun g hc => by rwa [hpools]).of_role (by rw [hhand, hhand'])
  rw [hhand] at hbefore
  rw [hhand', hretired] at hlodgings
  exact h.stepped_alone hget hrole htasks hrole'
    (Task.fits_of_role hrole' (by rwa [hhand']) hheard
      (.inl (hready i (.inr (List.mem_singleton_self i)))))
    (.talked hbefore hlodgings rfl rfl rfl hpools hchannels) (passed_of_pools hpools) hheeded

theorem stepped_session (h : Good broker config s) (hget : s.tasks[i]? = some task)
    {r : Transport.Request} {next : Requests.Answer r → Service.Action Result}
    (hrest : task.rest = .ask (.pooling (.session r)) next) :
    Stepped broker i s (s.run i w) := by
  have hkept := h.kept task (List.mem_of_getElem? hget)
  have hobeys := hkept.obeys
  rw [hrest] at hobeys
  obtain ⟨a₀, hand, hallowed⟩ := hobeys.allowed
  generalize hhand : task.hand = before at hallowed hobeys
  cases hallowed with
  | @talk role first rest _ _ channel₀ ht₀ =>
  rw [System.run_eq hget hrest]
  unfold System.answer
  cases ha : w.session r with
  | none =>
    simp only [ha]
    exact stepped_rest h hget (hkept.not_asking hhand) (.talks hrest)
  | some a =>
    simp only [ha]
    obtain ⟨channel, ht⟩ := ht₀.answered a
    refine stepped_talk h hget hhand rfl rfl rfl rfl (fun x => (mem_ready_wake ..).mpr)
      (fun others hp => ht.channels hp) ?_ (hobeys.next (.talk ht))
    show task.hand.heard r a = _
    simp only [hhand, Hand.heard, ht.heard]

/-! ## Looking for a publisher -/

/-- A task that asked one pool for a publisher is known to no other. -/
theorem Good.unknown_elsewhere (h : Good broker config s) (hget : s.tasks[i]? = some task)
    {cancel : TokenId} (hrole : task.hand.role = .asking g cancel) {g' : Guarantee} (hg : g' ≠ g) :
    i ∉ (s.pools g').available.known := by
  intro hmem
  obtain ⟨other, cancel', hget', hrole'⟩ := h.callers g' i hmem
  rw [hget] at hget'
  cases hget'
  rw [hrole] at hrole'
  cases hrole'
  exact hg rfl

theorem operated_update {pool : Pool (Nat × ChannelPublisher)} {woken : List Nat}
    (hpools : s'.pools = Function.update s.pools g pool) (hwoken : ∀ x ∈ woken, x ∈ s'.ready)
    (hlooks : ∀ g' ≠ g, s'.lookAt g' i = s.lookAt g' i)
    (hop : Pool.Operated (Pooling.numbered g) i (s.lookAt g i) (s'.lookAt g i) (s.pools g) pool
      woken) : Operated i s s' := by
  unfold Operated
  rw [hpools]
  refine (Function.forall_update_iff s.pools fun g' pool' => ∃ woken, (∀ x ∈ woken, x ∈ s'.ready) ∧
    Pool.Operated (Pooling.numbered g') i (s.lookAt g' i) (s'.lookAt g' i) (s.pools g') pool'
      woken).mpr ⟨⟨woken, hwoken, hop⟩, fun g' hg => ⟨[], nofun, ?_⟩⟩
  rw [hlooks g' hg]
  exact .none

/-- A task that asked for a publisher is known to the pool no longer. -/
theorem Good.stepped_off (h : Good broker config s) (hget : s.tasks[i]? = some task)
    {cancel : TokenId} (hrole : task.hand.role = .asking g cancel)
    {pool : Pool (Nat × ChannelPublisher)} {woken : List Nat}
    (htasks : s'.tasks = s.tasks.set i task')
    (hrole' : ∀ g cancel, task'.hand.role ≠ .asking g cancel) (hpools : s'.pools = Function.update s.pools g pool)
    (hwoken : ∀ x ∈ woken, x ∈ s'.ready)
    (hop : Pool.Operated (Pooling.numbered g) i task.look .rests (s.pools g) pool woken)
    (hgone : i ∉ pool.available.known) (hfits : task'.Fits broker s' i) (hmoved : Moved s s')
    (hheeded : Heeded i s s') : Stepped broker i s s' := by
  have hlt : i < s.tasks.length := (List.getElem?_eq_some_iff.mp hget).1
  have hget' : s'.tasks[i]? = some task' := by rw [htasks, List.getElem?_set_self hlt]
  have hlook : ∀ g', s.lookAt g' i = if g = g' then task.look else .rests := fun g' => by
    rw [System.lookAt_of_get hget, Task.lookAt_of_asking hrole]
  have hlook' : ∀ g', s'.lookAt g' i = .rests := fun g' => by
    rw [System.lookAt_of_get hget', Task.lookAt_of_role hrole']
  refine ⟨hmoved, operated_update hpools hwoken (fun g' hg => ?_) ?_, fun x hx _ => ?_,
    fun g' x hx => ?_, fun x other hget'' hx => ?_, hheeded, ?_⟩
  · rw [hlook, hlook', if_neg hg.symm]
  · rwa [hlook, hlook', if_pos rfl]
  · rw [htasks, List.getElem?_set_ne hx.symm]
  · exact lookAt_set (show s'.tasks = s.tasks.set i _ ++ [] from htasks.trans (List.append_nil _).symm)
      nofun g' hx
  · rcases hx with rfl | hx
    · obtain rfl := Option.some.inj (hget'.symm.trans hget'')
      exact hfits
    · have hlt' := (List.getElem?_eq_some_iff.mp hget'').1
      rw [htasks, List.length_set] at hlt'
      exact absurd hlt' (Nat.not_lt_of_le hx)
  · rw [hpools]
    exact (Function.forall_update_iff s.pools fun g' pool' => i ∈ pool'.available.known →
      (i ∈ pool'.available.woken → i ∈ s'.ready) ∧
        ∃ task cancel, s'.tasks[i]? = some task ∧ task.hand.role = .asking g' cancel).mpr
      ⟨fun hmem => absurd hmem hgone, fun g' hg hmem =>
        absurd hmem (h.unknown_elsewhere hget hrole hg)⟩

/-- A task that asks for a publisher still does, but may have come further in its look. -/
theorem Good.stepped_asking (h : Good broker config s) (hget : s.tasks[i]? = some task)
    {cancel : TokenId} (hhand : task.hand = ⟨.asking g cancel, []⟩) {look : Pool.Look}
    {pool : Pool (Nat × ChannelPublisher)} {woken : List Nat}
    (htasks : s'.tasks = s.tasks.set i { task with look })
    (hpools : s'.pools = Function.update s.pools g pool) (hwoken : ∀ x ∈ woken, x ∈ s'.ready)
    (hop : Pool.Operated (Pooling.numbered g) i task.look look (s.pools g) pool woken)
    (hready : i ∈ pool.available.woken → i ∈ s'.ready)
    (hsettled : i ∈ s'.ready ∨ Rests s' i { task with look })
    (halike : Pool.Alike (s.pools g) pool) (hretired : s'.retired = s.retired)
    (hchannels : s'.channels = s.channels) (hheeded : Heeded i s s') : Stepped broker i s s' := by
  have hkept := h.kept task (List.mem_of_getElem? hget)
  have hlt : i < s.tasks.length := (List.getElem?_eq_some_iff.mp hget).1
  have hget' : s'.tasks[i]? = some { task with look } := by rw [htasks, List.getElem?_set_self hlt]
  have hrole : task.hand.role = .asking g cancel := congrArg Hand.role hhand
  have hnone : task.hand.held = [] := congrArg Hand.held hhand
  have hlook : ∀ g', s.lookAt g' i = if g = g' then task.look else .rests := fun g' => by
    rw [System.lookAt_of_get hget, Task.lookAt_of_asking hrole]
  have hlook' : ∀ g', s'.lookAt g' i = if g = g' then look else .rests := fun g' =>
    (System.lookAt_of_get hget' g').trans (@Task.lookAt_of_asking { task with look } g cancel hrole g')
  refine ⟨moved_alike hget hnone htasks hpools halike hretired hchannels hnone,
    operated_update hpools hwoken (fun g' hg => ?_) ?_, fun x hx _ => ?_, fun g' x hx => ?_,
    fun x other hget'' hx => ?_, hheeded, ?_⟩
  · rw [hlook, hlook', if_neg hg.symm, if_neg hg.symm]
  · rwa [hlook, hlook', if_pos rfl, if_pos rfl]
  · rw [htasks, List.getElem?_set_ne hx.symm]
  · exact lookAt_set (show s'.tasks = s.tasks.set i _ ++ [] from htasks.trans (List.append_nil _).symm)
      nofun g' hx
  · rcases hx with rfl | hx
    · obtain rfl := Option.some.inj (hget'.symm.trans hget'')
      refine ⟨⟨hkept.obeys, hkept.fresh⟩, fun g' cancel' hrole' => ?_, fun stopped shut hclosing => ?_,
        hsettled⟩
      · exact hheeded.tokens cancel' (h.tokens task (List.mem_of_getElem? hget) g' cancel' hrole')
      · rw [hrole] at hclosing
        cases hclosing
    · have hlt' := (List.getElem?_eq_some_iff.mp hget'').1
      rw [htasks, List.length_set] at hlt'
      exact absurd hlt' (Nat.not_lt_of_le hx)
  · rw [hpools]
    exact (Function.forall_update_iff s.pools fun g' pool' => i ∈ pool'.available.known →
      (i ∈ pool'.available.woken → i ∈ s'.ready) ∧
        ∃ task cancel, s'.tasks[i]? = some task ∧ task.hand.role = .asking g' cancel).mpr
      ⟨fun _ => ⟨hready, _, cancel, hget', hrole⟩, fun g' hg hmem =>
        absurd hmem (h.unknown_elsewhere hget hrole hg)⟩

theorem heeded_unregister {cancel : TokenId} (htokens : s'.tokens = s.tokens.unregister cancel i)
    (hready : ∀ x ≠ i, x ∈ s.ready → x ∈ s'.ready) : Heeded i s s' := by
  refine ⟨hready, fun id hid => ?_, fun id _ hc => ?_, fun id x hx hl => .inl ?_⟩
  · rw [htokens]
    exact hid.unregister cancel i
  · rwa [htokens, Tokens.isCancelled_unregister]
  · rw [htokens]
    exact hl.unregister cancel hx

theorem heeded_register {cancel : TokenId} (htokens : s'.tokens = s.tokens.register cancel i)
    (hready : ∀ x ≠ i, x ∈ s.ready → x ∈ s'.ready) : Heeded i s s' := by
  refine ⟨hready, fun id hid => ?_, fun id _ hc => ?_, fun id x _ hl => .inl ?_⟩
  · rw [htokens]
    exact hid.register cancel i
  · rwa [htokens, Tokens.isCancelled_register]
  · rw [htokens]
    exact hl.register cancel i

theorem stepped_acquire (h : Good broker config s) (hget : s.tasks[i]? = some task)
    {cancel : TokenId} {next : Except PublishError ChannelPublisher → Service.Action Result}
    (hrest : task.rest = .ask (.pooling (.acquire g cancel)) next) :
    Stepped broker i s (s.run i w) := by
  have hkept := h.kept task (List.mem_of_getElem? hget)
  have hobeys := hkept.obeys
  rw [hrest] at hobeys
  obtain ⟨_, _, hallowed⟩ := hobeys.allowed
  have hhand : task.hand = ⟨.asking g cancel, []⟩ := by
    generalize task.hand = hand at hallowed
    cases hallowed <;> rfl
  have hrole : task.hand.role = .asking g cancel := congrArg Hand.role hhand
  have hnone : task.hand.held = [] := congrArg Hand.held hhand
  have hexists := h.tokens task (List.mem_of_getElem? hget) g cancel hrole
  have hself : i ∈ [i] := List.mem_singleton_self i
  rw [hhand] at hobeys
  rw [System.run_eq hget hrest]
  simp only [System.answer, System.acquire]
  have hlooked := Pool.step_looked (s.pools g) (Pooling.numbered g) (s.tokens.isCancelled cancel)
    w.cancelFirst i task.look
  generalize (s.pools g).step (Pooling.numbered g) (s.tokens.isCancelled cancel) w.cancelFirst i
    task.look = stepped at hlooked ⊢
  obtain ⟨progress, pool, woken⟩ := stepped
  have hop := Pool.Operated.looked hlooked
  have hunknown : task.look.listed = false → i ∉ (s.pools g).available.known := fun hlisted =>
    (h.fair g).unknown i (by
      rwa [System.lookAt_of_get hget, Task.lookAt_of_asking hrole, if_pos rfl])
  have hready : ∀ x, x ∈ s.ready ∨ x ∈ woken → x ∈ ((s.setPool g pool).wake woken).ready :=
    fun x => (mem_ready_wake (s.setPool g pool) woken x).mpr
  have hon : ∀ x, x ∈ s.ready ∨ x ∈ woken → ∀ {task' : Task} {tokens : Tokens},
      x ∈ (({ (s.setPool g pool).wake woken with tokens }.setTask i task').wake [i]).ready :=
    fun x hx _ _ => (mem_ready_wake ..).mpr (.inl (hready x hx))
  cases progress with
  | goesOn look =>
    exact h.stepped_asking hget hhand rfl rfl (fun x hx => hon x (.inr hx)) hop
      (fun _ => (mem_ready_wake ..).mpr (.inr hself)) (.inl ((mem_ready_wake ..).mpr (.inr hself)))
      (hlooked.alike nofun) rfl rfl (heeded_of_tokens rfl fun x _ hx => hon x (.inl hx))
  | comes attempt =>
    cases attempt with
    | waits =>
      obtain ⟨hlook, hw, hlive, rfl, rfl⟩ : task.look = .rests ∧ i ∈ (s.pools g).available.waiting ∧
          s.tokens.isCancelled cancel = false ∧ pool = s.pools g ∧ woken = [] := hlooked.waits
      have hlive' := Tokens.listening_register hexists hlive i
      have hasleep : i ∉ (s.pools g).available.woken := fun hwoken =>
        (List.nodup_append.mp (h.fair g).nodup).2.2 i hw i hwoken rfl
      have hsame : s.tasks = s.tasks.set i { task with look := .rests } := by
        obtain ⟨hlt, hself⟩ := List.getElem?_eq_some_iff.mp hget
        rw [← hlook, ← hself, List.set_getElem_self]
      refine h.stepped_asking hget hhand hsame rfl (fun x hx => absurd hx List.not_mem_nil) hop
        (fun hwoken => absurd hwoken hasleep) (.inr (.sleeps hrole rfl ?_ hlive')) (.refl _) rfl rfl
        (heeded_register rfl fun x hx hmem => (mem_ready_rest ..).mpr ⟨hready x (.inl hmem), hx⟩)
      show i ∈ (Function.update s.pools g (s.pools g) g).available.waiting
      rwa [Function.update_self]
    | refused e =>
      exact h.stepped_off hget hrole rfl nofun rfl (fun x hx => hon x (.inr hx)) hop
        (hlooked.gone (h.fair g).nodup hunknown nofun)
        (Task.fits_of_plain nofun nofun (hobeys.next (.refused e))
          (.inl ((mem_ready_wake ..).mpr (.inr hself))))
        (moved_alike hget hnone rfl rfl (hlooked.alike nofun) rfl rfl rfl)
        (heeded_unregister rfl fun x _ hx => hon x (.inl hx))
    | lent p =>
      refine h.stepped_off hget hrole rfl nofun rfl (fun x hx => hon x (.inr hx)) hop
        (hlooked.gone (h.fair g).nodup hunknown nofun)
        (Task.fits_of_plain nofun nofun (hobeys.next (.lent p.1 p.2))
          (.inl ((mem_ready_wake ..).mpr (.inr hself)))) ?_
        (heeded_unregister rfl fun x _ hx => hon x (.inl hx))
      have htried := hlooked.tried
      generalize task.look = look at htried
      cases htried with
      | nothing hno => exact absurd rfl (hno p)
      | taken hidle halike => exact moved_taken hget hnone hidle rfl rfl halike rfl rfl rfl
      | grown hsize => exact moved_grown hget hnone rfl rfl (.refl _) rfl rfl rfl

/-! ## Giving back and closing -/

/-- A task that goes on is ready, and so are those whom it woke. -/
theorem mem_ready_on {t : System} {woken : List Nat} (x : Nat) (h : x ∈ t.ready ∨ x ∈ woken ∨ x = i) :
    x ∈ (((t.wake woken).setTask i task').wake [i]).ready := by
  rcases h with h | h | h
  · exact (mem_ready_wake ..).mpr (.inl ((mem_ready_wake t woken x).mpr (.inl h)))
  · exact (mem_ready_wake ..).mpr (.inl ((mem_ready_wake t woken x).mpr (.inr h)))
  · exact (mem_ready_wake ..).mpr (.inr (List.mem_singleton.mpr h))

theorem stepped_putBack (h : Good broker config s) (hget : s.tasks[i]? = some task)
    {publisher : ChannelPublisher} {next : Option ChannelPublisher → Service.Action Result}
    (hrest : task.rest = .ask (.pooling (.putBack g publisher)) next) :
    Stepped broker i s (s.run i w) := by
  have hkept := h.kept task (List.mem_of_getElem? hget)
  have hobeys := hkept.obeys
  rw [hrest] at hobeys
  obtain ⟨_, _, hallowed⟩ := hobeys.allowed
  obtain ⟨first, hhand, rfl, hp⟩ : ∃ first : Held, task.hand = ⟨.borrowing, [first]⟩ ∧
      first.guarantee = g ∧ publisher.channel = first.channel := by
    generalize task.hand = hand at hallowed
    cases hallowed with
    | kept hg hp => exact ⟨_, rfl, hg, hp⟩
    | late hg hp => exact ⟨_, rfl, hg, hp⟩
  have hrole := hkept.not_asking hhand
  rw [hhand] at hobeys
  rw [System.run_eq hget hrest]
  simp only [System.answer, System.putBack, hhand]
  cases hclosed : (s.pools first.guarantee).closed with
  | true =>
    rw [Pool.putBack_of_closed hclosed]
    exact h.stepped_alone hget hrole rfl nofun
      (Task.fits_of_plain nofun nofun (hobeys.next (.late rfl hp))
        (.inl (mem_ready_on i (.inr (.inr rfl)))))
      (moved_late hget hhand rfl rfl hclosed rfl rfl rfl)
      (passed_setPool rfl (fun x hx => mem_ready_on x (.inr (.inl hx))) fun j look => .shrink hclosed)
      (heeded_of_tokens rfl fun x _ hx => mem_ready_on x (.inl hx))
  | false =>
    rw [Pool.putBack_of_open hclosed]
    exact h.stepped_alone hget hrole rfl nofun
      (Task.fits_of_plain nofun nofun (hobeys.next (.kept rfl hp))
        (.inl (mem_ready_on i (.inr (.inr rfl)))))
      (moved_kept hget hhand hp rfl rfl ⟨rfl, rfl, rfl, rfl, rfl⟩ rfl rfl rfl)
      (passed_setPool rfl (fun x hx => mem_ready_on x (.inr (.inl hx))) fun j look => .kept _ hclosed)
      (heeded_of_tokens rfl fun x _ hx => mem_ready_on x (.inl hx))

/-- One pool is closed now, if it was not before. -/
theorem Task.Heard.shut (h : task.Heard s) {stopped : Bool} {shut shut' : List Guarantee}
    (hrole : task.hand.role = .closing stopped shut) {pool : Pool (Nat × ChannelPublisher)}
    (htokens : s'.tokens = s.tokens) (hpools : s'.pools = Function.update s.pools g pool)
    (hpool : pool.closed = true) (hrole' : task'.hand.role = .closing stopped shut')
    (hshut : ∀ g' ∈ shut', g' = g ∨ g' ∈ shut) : task'.Heard s' := by
  intro stopped' shut'' hclosing
  rw [hrole'] at hclosing
  cases hclosing
  rw [htokens, hpools]
  refine ⟨(h stopped shut hrole).1, fun g' hg' => ?_⟩
  by_cases hg : g' = g
  · rwa [hg, Function.update_self]
  · rw [Function.update_of_ne hg]
    exact (h stopped shut hrole).2 g' ((hshut g' hg').resolve_left hg)

theorem stepped_drain (h : Good broker config s) (hget : s.tasks[i]? = some task)
    {next : List ChannelPublisher → Service.Action Result}
    (hrest : task.rest = .ask (.pooling (.drain g)) next) : Stepped broker i s (s.run i w) := by
  have hkept := h.kept task (List.mem_of_getElem? hget)
  have hobeys := hkept.obeys
  rw [hrest] at hobeys
  obtain ⟨_, _, hallowed⟩ := hobeys.allowed
  obtain ⟨stopped, shut, hhand⟩ : ∃ stopped shut, task.hand = ⟨.closing stopped shut, []⟩ := by
    generalize task.hand = hand at hallowed
    cases hallowed
    exact ⟨_, _, rfl⟩
  have hrole : ∀ g cancel, task.hand.role ≠ .asking g cancel := by
    rw [hhand]
    nofun
  have hnone : task.hand.held = [] := congrArg Hand.held hhand
  have hheard := h.heard task (List.mem_of_getElem? hget)
  have hclosing : task.hand.role = .closing stopped shut := congrArg Hand.role hhand
  rw [hhand] at hobeys
  rw [System.run_eq hget hrest]
  simp only [System.answer, System.drain, hhand, Role.shutting, List.append_nil]
  cases hclosed : (s.pools g).closed with
  | true =>
    rw [Pool.drain_of_closed hclosed]
    exact h.stepped_alone hget hrole rfl nofun
      (Task.fits_of_role nofun (hobeys.next (.drain []))
        (hheard.shut hclosing rfl rfl hclosed rfl fun _ => List.mem_cons.mp)
        (.inl (mem_ready_on i (.inr (.inr rfl)))))
      (moved_alike hget hnone rfl rfl (.refl _) rfl rfl rfl)
      (passed_setPool rfl (fun x hx => mem_ready_on x (.inr (.inl hx))) fun j look => .none)
      (heeded_of_tokens rfl fun x _ hx => mem_ready_on x (.inl hx))
  | false =>
    rw [Pool.drain_of_open hclosed]
    exact h.stepped_alone hget hrole rfl nofun
      (Task.fits_of_role nofun (hobeys.next (.drain _))
        (hheard.shut hclosing rfl rfl rfl rfl fun _ => List.mem_cons.mp)
        (.inl (mem_ready_on i (.inr (.inr rfl)))))
      (moved_drained hget hnone rfl rfl ⟨rfl, rfl, rfl, rfl, rfl⟩ rfl rfl rfl)
      (passed_setPool rfl (fun x hx => mem_ready_on x (.inr (.inl hx))) fun j look => .drained hclosed)
      (heeded_of_tokens rfl fun x _ hx => mem_ready_on x (.inl hx))

/-- A publisher on its way to be closed is from a closed pool. -/
theorem Good.closed_of_held (h : Good broker config s) (hget : s.tasks[i]? = some task) {role : Role}
    {first : Held} {rest : List Held} (hhand : task.hand = ⟨role, first :: rest⟩)
    (hending : role.place.ending = true) : (s.pools first.guarantee).closed = true := by
  obtain ⟨others, hbefore, -⟩ := lodgings_focus hget .atLeastOnce
  rw [hhand] at hbefore
  exact h.accounted.ending ⟨role.place, first⟩ (hbefore.mem_iff.mpr List.mem_cons_self) hending

theorem stepped_shrink (h : Good broker config s) (hget : s.tasks[i]? = some task)
    {next : Unit → Service.Action Result} (hrest : task.rest = .ask (.pooling (.shrink g)) next) :
    Stepped broker i s (s.run i w) := by
  have hkept := h.kept task (List.mem_of_getElem? hget)
  have hobeys := hkept.obeys
  rw [hrest] at hobeys
  obtain ⟨_, _, hallowed⟩ := hobeys.allowed
  obtain ⟨stopped, shut, first, rest, hhand, rfl, hnone⟩ : ∃ (stopped : Bool)
      (shut : List Guarantee) (first : Held) (rest : List Held),
      task.hand = ⟨.closing stopped shut, first :: rest⟩ ∧ first.guarantee = g ∧
        first.channel = none := by
    generalize task.hand = hand at hallowed
    cases hallowed with
    | shrink hg hc => exact ⟨_, _, _, _, rfl, hg, hc⟩
  have hrole := hkept.not_asking hhand
  have hclosed := h.closed_of_held hget hhand rfl
  have hheard := h.heard task (List.mem_of_getElem? hget)
  have hclosing : task.hand.role = .closing stopped shut := congrArg Hand.role hhand
  rw [hhand] at hobeys
  rw [System.run_eq hget hrest]
  simp only [System.answer, System.shrink, hhand, List.tail_cons, List.head?_cons, Option.toList_some,
    List.map_cons, List.map_nil]
  exact h.stepped_alone hget hrole rfl nofun
    (Task.fits_of_role nofun (hobeys.next (.shrink rfl hnone))
      (hheard.shut hclosing rfl rfl hclosed rfl fun _ => .inr)
      (.inl ((mem_ready_wake ..).mpr (.inr (List.mem_singleton_self i)))))
    (moved_shrunk hget hhand hnone rfl rfl hclosed rfl rfl rfl rfl rfl)
    (passed_setPool rfl (fun x hx => absurd hx List.not_mem_nil) fun j look => .shrink hclosed)
    (heeded_of_tokens rfl fun _ _ hx => (mem_ready_wake ..).mpr (.inl hx))

theorem stepped_detach (h : Good broker config s) (hget : s.tasks[i]? = some task)
    {publisher : ChannelPublisher} {next : Unit → Service.Action Result}
    (hrest : task.rest = .ask (.pooling (.detach publisher)) next) :
    Stepped broker i s (s.run i w) := by
  have hkept := h.kept task (List.mem_of_getElem? hget)
  have hobeys := hkept.obeys
  rw [hrest] at hobeys
  obtain ⟨_, _, hallowed⟩ := hobeys.allowed
  obtain ⟨first, hhand, hp⟩ : ∃ first : Held, task.hand = ⟨.returning, [first]⟩ ∧
      publisher.channel = first.channel := by
    generalize task.hand = hand at hallowed
    cases hallowed with
    | detach hp => exact ⟨_, rfl, hp⟩
  have hrole := hkept.not_asking hhand
  have hlt : i < s.tasks.length := (List.getElem?_eq_some_iff.mp hget).1
  rw [hhand] at hobeys
  rw [System.run_eq hget hrest]
  simp only [System.answer, System.detach, hhand]
  cases w.spawns with
  | false =>
    simp only [Bool.false_eq_true, if_false]
    exact h.stepped_alone hget hrole rfl nofun
      (Task.fits_of_plain nofun nofun (hobeys.next (.detach hp))
        (.inl ((mem_ready_wake ..).mpr (.inr (List.mem_singleton_self i)))))
      (moved_dropped hget hhand rfl rfl rfl rfl rfl (by simp [System.wake, System.setTask]) rfl)
      (passed_of_pools rfl) (heeded_of_tokens rfl fun x _ hx => (mem_ready_wake ..).mpr (.inl hx))
  | true =>
    simp only [if_true]
    refine h.stepped_on hget hrole _ (List.set_append_left i _ hlt) nofun (by simp)
      (Task.fits_of_plain nofun nofun (hobeys.next (.detach hp))
        (.inl (mem_ready_on i (.inr (.inr rfl)))))
      (fun x other hget' hx => ?_)
      (moved_detached hget hhand (List.set_append_left i _ hlt) rfl (h.closed_of_held hget hhand rfl)
        rfl rfl rfl rfl)
      (passed_of_pools rfl) (heeded_of_tokens rfl fun x _ hx => mem_ready_on x (.inl hx))
    change ((s.tasks ++ [_]).set i _)[x]? = some other at hget'
    rw [List.set_append_left i _ hlt, List.getElem?_append_right (by rwa [List.length_set]),
      List.length_set] at hget'
    obtain ⟨hlt', rfl⟩ := List.getElem?_eq_some_iff.mp hget'
    obtain rfl : x = s.tasks.length := by
      simp only [List.length_singleton] at hlt'
      omega
    simp only [List.getElem_singleton]
    refine Task.fits_of_plain nofun nofun
      ((obeys_closer hp).mono fun _ hand hhand => ⟨.inl hhand, .inr rfl⟩).bind ?_
    exact .inl (mem_ready_on _ (.inr (.inl (List.mem_singleton_self _))))

theorem stepped_cancelToken (h : Good broker config s) (hget : s.tasks[i]? = some task)
    {token : TokenId} {next : Unit → Service.Action Result}
    (hrest : task.rest = .ask (.consuming (.cancelToken token)) next) :
    Stepped broker i s (s.run i w) := by
  have hkept := h.kept task (List.mem_of_getElem? hget)
  have hobeys := hkept.obeys
  rw [hrest] at hobeys
  obtain ⟨_, _, hallowed⟩ := hobeys.allowed
  obtain ⟨stopped, shut, hhand, rfl⟩ : ∃ stopped shut, task.hand = ⟨.closing stopped shut, []⟩ ∧
      token = delivery := by
    generalize task.hand = hand at hallowed
    cases hallowed
    exact ⟨_, _, rfl, rfl⟩
  have hrole : ∀ g cancel, task.hand.role ≠ .asking g cancel := by
    rw [hhand]
    nofun
  have hnone : task.hand.held = [] := congrArg Hand.held hhand
  have hheard := h.heard task (List.mem_of_getElem? hget) stopped shut (congrArg Hand.role hhand)
  have hheeded := heeded_cancel i s delivery
  have hself : i ∈ [i] := List.mem_singleton_self i
  rw [hhand] at hobeys
  rw [System.run_eq hget hrest]
  simp only [System.answer, hhand, Role.stopping]
  refine h.stepped_alone hget hrole rfl nofun
    (Task.fits_of_role nofun (hobeys.next .stop) (fun stopped' shut' hclosing => ?_)
      (.inl ((mem_ready_wake ..).mpr (.inr hself))))
    (moved_alike hget hnone rfl (Function.update_eq_self .atLeastOnce s.pools).symm (.refl _) rfl rfl
      rfl)
    (passed_of_pools rfl)
    ⟨fun x hx hmem => (mem_ready_wake ..).mpr (.inl (hheeded.ready x hx hmem)), hheeded.tokens,
      hheeded.cancelled, fun id x hx hl => (hheeded.listening id x hx hl).imp_right fun hmem =>
        (mem_ready_wake ..).mpr (.inl hmem)⟩
  cases hclosing
  exact ⟨fun _ => Tokens.isCancelled_cancel_self h.there, hheard.2⟩

/-! ## All that a task may do -/

/-- A task that is done does not ask for a publisher. -/
theorem Task.Kept.not_asking_of_done (h : task.Kept broker) {result : Result}
    (hrest : task.rest = .done result) (g : Guarantee) (cancel : TokenId) :
    task.hand.role ≠ .asking g cancel := by
  intro hrole
  obtain ⟨-, call, -, -, hprogram⟩ := h.fresh g cancel hrole
  rw [hrest] at hprogram
  cases call <;> cases hprogram

/-- Only who has closed a publisher is done as a closer. -/
theorem Result.At.of_closer {result : Result} {hand : Hand} (h : result.At hand)
    (hcloser : hand.role = .closer) :
    ∃ first : Held, hand = ⟨.closer, [first]⟩ ∧ first.channel = none ∧ result = .closed := by
  cases result with
  | acquired result =>
    cases result with
    | ok publisher =>
      obtain ⟨g, number, rfl⟩ := h
      cases hcloser
    | error e =>
      obtain rfl : hand = ⟨.ended, []⟩ := h
      cases hcloser
  | published result =>
    obtain rfl : hand = ⟨.ended, []⟩ := h
    cases hcloser
  | shut stopped pools =>
    obtain ⟨stopped', shut, rfl, -⟩ := h
    cases hcloser
  | closed =>
    rcases h with ⟨first, rfl, hnone⟩ | rfl
    · exact ⟨first, rfl, hnone, rfl⟩
    · cases hcloser
  | gone =>
    obtain rfl : hand = ⟨.ended, []⟩ := h
    cases hcloser

theorem stepped_finish (h : Good broker config s) (hget : s.tasks[i]? = some task) {result : Result}
    (hrest : task.rest = .done result) : Stepped broker i s (s.finish i task) := by
  have hkept := h.kept task (List.mem_of_getElem? hget)
  have hrole := hkept.not_asking_of_done hrest
  have hat := hkept.obeys
  rw [hrest] at hat
  obtain ⟨hat, hcomes⟩ : Ended task.call result task.hand := hat
  by_cases hcloser : task.hand.role = .closer
  · obtain ⟨first, hhand, hnone, rfl⟩ : ∃ first : Held, task.hand = ⟨.closer, [first]⟩ ∧
        first.channel = none ∧ result = .closed := hat.of_closer hcloser
    simp only [System.finish, hhand, List.map_cons, List.map_nil]
    refine h.stepped_alone hget hrole rfl nofun
      (Task.fits_of_plain nofun nofun ?_ (.inr (.ended hrest nofun)))
      (moved_closedLate hget hhand hnone rfl rfl (h.closed_of_held hget hhand rfl) rfl rfl rfl rfl rfl)
      (passed_of_pools rfl)
      (heeded_of_tokens rfl fun x hx hmem => (mem_ready_rest ..).mpr ⟨hmem, hx⟩)
    show task.rest.Obeys Moves (Ended task.call) ⟨.ended, []⟩
    rw [hrest]
    exact ⟨.inr rfl, hcomes⟩
  · have hfinish : s.finish i task = s.rest i := by
      unfold System.finish
      split
      · rename_i hcloser'
        exact absurd hcloser' hcloser
      · rfl
    rw [hfinish]
    exact stepped_rest h hget hrole (.ended hrest hcloser)

/-- An event that concerns nobody. -/
theorem Good.stepped_nobody (h : Good broker config s) (hnone : s.tasks[i]? = none)
    (htasks : s'.tasks = s.tasks) (hpools : s'.pools = s.pools) (hretired : s'.retired = s.retired)
    (hchannels : s'.channels = s.channels) (hheeded : Heeded i s s') : Stepped broker i s s' := by
  have hlodgings : s'.lodgings = s.lodgings := by
    rw [System.lodgings, System.lodgings, htasks, hpools, hretired]
  have hunknown : ∀ g, i ∉ (s.pools g).available.known := fun g hmem => by
    obtain ⟨task, cancel, hget, -⟩ := h.callers g i hmem
    rw [hnone] at hget
    cases hget
  have hlooks : ∀ g x, s'.lookAt g x = s.lookAt g x := fun g x => by
    rw [System.lookAt, System.lookAt, htasks]
  refine ⟨moved_of_same (.of_eq hlodgings) (fun g => by rw [hpools]; exact .refl _) hchannels,
    fun g => ⟨[], fun x hx => absurd hx List.not_mem_nil, by rw [hpools, hlooks]; exact .none⟩,
    fun x _ _ => by rw [htasks], fun g x _ => hlooks g x, fun x task hget hx => ?_, hheeded,
    fun g hmem => absurd (hpools ▸ hmem) (hunknown g)⟩
  rw [htasks] at hget
  rcases hx with rfl | hx
  · rw [hnone] at hget
    cases hget
  · exact absurd (List.getElem?_eq_some_iff.mp hget).1 (Nat.not_lt_of_le hx)

/-- A task goes on by one request, whichever that is. -/
theorem stepped_run (h : Good broker config s) (i : Nat) (w : Surroundings) :
    Stepped broker i s (s.run i w) := by
  cases hget : s.tasks[i]? with
  | none =>
    have hsame : s.run i w = s := by rw [System.run, hget]
    rw [hsame]
    exact h.stepped_nobody hget rfl rfl rfl rfl (.refl i s)
  | some task =>
    cases hrest : task.rest with
    | done result =>
      have hfinish : s.run i w = s.finish i task := by
        rw [System.run, hget]
        simp only [hrest]
      rw [hfinish]
      exact stepped_finish h hget hrest
    | ask r next =>
      have hobeys := (h.kept task (List.mem_of_getElem? hget)).obeys
      rw [hrest] at hobeys
      obtain ⟨_, _, hallowed⟩ := hobeys.allowed
      generalize task.hand = hand at hallowed
      cases hallowed with
      | talk => exact stepped_session h hget hrest
      | lent => exact stepped_acquire h hget hrest
      | refused => exact stepped_acquire h hget hrest
      | kept => exact stepped_putBack h hget hrest
      | late => exact stepped_putBack h hget hrest
      | detach => exact stepped_detach h hget hrest
      | drain => exact stepped_drain h hget hrest
      | shrink => exact stepped_shrink h hget hrest
      | stop => exact stepped_cancelToken h hget hrest

end Courier.Brokerage
