import Courier.Proofs.Posting.System
import Courier.Proofs.Lists
import Courier.Proofs.Publisher.Lending
import Courier.Proofs.Publisher.Sending

/-!
# A publish takes effect once or not at all

What a publish is to hand over is known before it begins (`Order.plan`). As long as it goes on, it keeps
to the protocol of a publish, and its visits have left behind what its stage says (`Course`):
`answer_sends` is one look at what is shared. `Good` says it of all calls, and each event keeps it, what
the others do included, for a look of one call is no visit of another.
-/

namespace Courier

namespace PublishError

/-- Is there no publisher for it? -/
def lacksPublisher : PublishError → Bool
  | .cancelled | .poolClosed | .standalone => true
  | _ => false

end PublishError

namespace Posting

open Pooling (Reaction Request Sending Sends Returned)

/-- What it is to hand over, or why it will not; none if it is no publish. -/
def Order.plan (broker : Broker) : Order → Option (Except PublishError Publishing)
  | .publish _ destination body _ => some (.ok ⟨destination, body⟩)
  | @publishJson _ _ _ destination value _ =>
    match broker.validator.validate value with
    | .error cause => some (.error (.validation cause))
    | .ok () =>
      match Payload.toJson value with
      | .error cause => some (.error (.encoding cause))
      | .ok json => some (.ok ⟨destination, json.encode⟩)
  | .other _ => none

/-! ## What is left behind -/

variable {publishing : Publishing} {visits : List Visit} {stage : Sending}

theorem Visit.Traceless.appended {v : Visit} (h : v.Traceless) : v.appended = [] := by
  rw [Visit.appended, h.log, List.drop_length]

theorem appended_of_traceless (h : ∀ v ∈ visits, v.Traceless) : visits.flatMap Visit.appended = [] :=
  List.flatMap_eq_nil_iff.mpr fun v hv => (h v hv).appended

/-- What the visits of a publish have left behind that has come so far. -/
def Course (publishing : Publishing) (visits : List Visit) : Sending → Prop
  | .lent (some (.ok ())) => visits.flatMap Visit.appended = [publishing]
  | .refused e => e.lacksPublisher = true ∧ ∀ v ∈ visits, v.Traceless
  | _ => ∀ v ∈ visits, v.Traceless

theorem Course.once (h : Course publishing visits stage) :
    visits.flatMap Visit.appended = [] ∨ visits.flatMap Visit.appended = [publishing] := by
  match stage, h with
  | .lent (some (.ok ())), h => exact .inr h
  | .refused _, h => exact .inl (appended_of_traceless h.2)
  | .fresh, h | .lent none, h | .lent (some (.error _)), h => exact .inl (appended_of_traceless h)

/-- A visit without a trace makes no difference. -/
theorem Course.visit (h : Course publishing visits stage) {v : Visit} (hv : v.Traceless) :
    Course publishing (visits ++ [v]) stage := by
  have all (h : ∀ v ∈ visits, v.Traceless) : ∀ x ∈ visits ++ [v], x.Traceless :=
    List.forall_mem_append.mpr ⟨h, List.forall_mem_singleton.mpr hv⟩
  match stage, h with
  | .lent (some (.ok ())), h =>
    simp only [Course, List.flatMap_append, List.flatMap_singleton, hv.appended, List.append_nil]
    exact h
  | .refused _, h => exact ⟨h.1, all h.2⟩
  | .fresh, h | .lent none, h | .lent (some (.error _)), h => exact all h

/-! ## One look at what is shared -/

namespace Shared

variable (s : Shared) (i : Nat) (call : Call) (cancelled cancelFirst : Bool)

/-- Only a request to the connection reaches the in-memory broker. -/
theorem memory_answer (r : Request) : (s.answer i call cancelled cancelFirst r).2.memory =
    match r with
    | .session r => (Memory.answer r s.memory).2
    | _ => s.memory := by
  cases r with
  | session r => rfl
  | acquire guarantee cancel =>
    simp only [answer]
    cases s.pools with
    | none => rfl
    | some pools =>
      simp only
      split <;> rfl
  | putBack guarantee publisher => cases hp : s.pools <;> simp only [answer, hp]
  | drain guarantee => cases hp : s.pools <;> simp only [answer, hp]
  | shrink guarantee => rfl
  | detach publisher => rfl

/-- By most requests no message gets into the log or into a queue. -/
theorem traceless_answer (who : Option Nat) {r : Request} (h : r.isAside = true) :
    Visit.Traceless ⟨who, s, (s.answer i call cancelled cancelFirst r).2⟩ := by
  have hm := s.memory_answer i call cancelled cancelFirst r
  cases r with
  | session r =>
    obtain ⟨hp, hr⟩ : r.isPublish = false ∧ r.isRefusal = false := by
      simpa [Request.isAside] using h
    have hc := Memory.answer_change hp hr s.memory
    exact ⟨hm ▸ hc.published, fun queue => hm ▸ hc.ready queue⟩
  | _ => exact ⟨congrArg _ hm, fun queue => congrArg (Memory.ready · queue) hm⟩

/-- The log is only added to. -/
theorem published_answer (r : Request) :
    s.memory.published <+: (s.answer i call cancelled cancelFirst r).2.memory.published := by
  rw [memory_answer]
  split
  · exact Memory.published_act s.memory (.request _)
  · exact List.prefix_refl _

/-- Who gets no publisher is told so. -/
theorem lacksPublisher_of_answer {guarantee : Guarantee} {cancel : Nat} {e : PublishError} {call' : Call}
    (h : (s.answer i call cancelled cancelFirst (.acquire guarantee cancel)).1 =
      .answered (.error e) call') : e.lacksPublisher = true := by
  simp only [answer] at h
  split at h
  · cases h
    rfl
  · rename_i pools _
    have hlooked := Pool.step_looked (pools.get guarantee) (fun _ => .of guarantee) cancelled
      cancelFirst i call.look
    split at h <;> cases h
    rename_i hprogress
    rw [hprogress] at hlooked
    obtain rfl | rfl := hlooked.refused <;> rfl

/-- A call is for its order whatever comes of a request, and does nothing else before it is answered. -/
theorem after_answer (r : Request) : ∃ guard look,
    (s.answer i call cancelled cancelFirst r).1.after call = { call with guard, look } := by
  cases r with
  | session r => exact ⟨_, _, rfl⟩
  | acquire guarantee cancel =>
    simp only [answer]
    cases s.pools with
    | none => exact ⟨_, _, rfl⟩
    | some pools =>
      simp only
      split <;> exact ⟨_, _, rfl⟩
  | putBack guarantee publisher => cases hp : s.pools <;> simp only [answer, hp] <;> exact ⟨_, _, rfl⟩
  | drain guarantee => cases hp : s.pools <;> simp only [answer, hp] <;> exact ⟨_, _, rfl⟩
  | shrink guarantee => exact ⟨_, _, rfl⟩
  | detach publisher => exact ⟨_, _, rfl⟩

/-- A publish gets an answer that its protocol has, and leaves behind what its stage says. -/
theorem answer_sends (hc : Course publishing visits stage) {r : Request}
    (hallowed : ∃ a stage', Sends publishing stage r a stage') (who : Option Nat)
    {a : Requests.Answer r} {call' : Call} {left : Shared}
    (h : s.answer i call cancelled cancelFirst r = (.answered a call', left)) :
    ∃ stage', Sends publishing stage r a stage' ∧
      Course publishing (visits ++ [⟨who, s, left⟩]) stage' := by
  have hvisit (haside : r.isAside = true) : Course publishing (visits ++ [⟨who, s, left⟩]) stage := by
    have htrace := s.traceless_answer i call cancelled cancelFirst who haside
    rw [h] at htrace
    exact hc.visit htrace
  obtain ⟨a', stage', hm⟩ := hallowed
  cases hm with
  | aside haside hr => exact ⟨stage, .aside haside hr a, hvisit haside⟩
  | lent _ | refused _ =>
    cases a with
    | ok publisher => exact ⟨_, .lent publisher, hvisit rfl⟩
    | error e =>
      have he := s.lacksPublisher_of_answer i call cancelled cancelFirst (congrArg Prod.fst h)
      exact ⟨_, .refused e, he, hvisit rfl⟩
  | @publish channel options =>
    refine ⟨_, .publish a, ?_⟩
    obtain ⟨e, n, hp⟩ | ⟨targets, -, hp⟩ :=
      Memory.publish_cases s.memory channel publishing options
    · simp only [answer, Memory.answer, hp] at h
      cases h
      exact hc.visit ⟨rfl, fun _ => rfl⟩
    · simp only [answer, Memory.answer, hp] at h
      cases h
      simp only [Course, List.flatMap_append, appended_of_traceless hc, List.flatMap_singleton,
        Visit.appended, Memory.published_accept, List.drop_left, List.nil_append]

/-- Who has no answer yet looks for a publisher. -/
theorem isAside_of_unanswered {r : Request}
    (h : ∀ a call', (s.answer i call cancelled cancelFirst r).1 ≠ .answered a call') :
    r.isAside = true := by
  cases r with
  | session r => exact absurd rfl (h _ _)
  | _ => rfl

theorem memory_abandon (r : Request) : (s.abandon i r).memory = s.memory := by
  cases r <;> rfl

end Shared

/-! ## Calls -/

/-- A call that has returned stands as its answer says. -/
def Answered (result : Option (Except PublishError Unit)) (stage : Sending) : Prop :=
  ∀ r, result = some r → Returned r stage

/-- How a call with this plan stands, and what its visits have left behind. -/
def Kept (call : Call) (visits : List Visit) : Option (Except PublishError Publishing) → Prop
  | none => True
  | some (.error e) => call.rest = .done (some (.error e)) ∧ visits = []
  | some (.ok publishing) =>
    ∃ stage, call.rest.Obeys (Sends publishing) Answered stage ∧ Course publishing visits stage

/-- A call that has just begun. -/
theorem kept_start (broker : Broker) (order : Order) :
    Kept { order, rest := order.program broker } [] (order.plan broker) := by
  have publish (guarantee : Guarantee) (cancel : TokenId) (publishing : Publishing) :
      Kept { order, rest := (Pooling.publish guarantee cancel publishing).bind fun result =>
        .done (some result) } [] (some (.ok publishing)) := by
    refine ⟨.fresh, ?_, List.forall_mem_nil _⟩
    refine ((Pooling.publish_sends guarantee cancel publishing).mono fun result stage h => ?_).bind
    rintro _ ⟨⟩
    exact h
  cases order with
  | publish cancel destination body guarantee => exact publish guarantee cancel ⟨destination, body⟩
  | other program => trivial
  | publishJson cancel destination value guarantee =>
    simp only [Order.plan, Order.program, Broker.publishJson]
    cases broker.validator.validate value with
    | error cause => exact ⟨rfl, rfl⟩
    | ok =>
      simp only
      cases Payload.toJson value with
      | error cause => exact ⟨rfl, rfl⟩
      | ok json => exact publish guarantee cancel ⟨destination, json.encode⟩

section Kept

variable {call : Call} {plan : Option (Except PublishError Publishing)} {r : Request}
  {next : Requests.Answer r → Pooling.Action (Option (Except PublishError Unit))} {s : Shared}
  {i : Nat} {cancelled cancelFirst : Bool} {left : Shared}

/-- A call that goes on has something to hand over, if it publishes. -/
theorem Kept.elim {P : Option (Except PublishError Publishing) → Prop} (h : Kept call visits plan)
    (hrest : call.rest = .ask r next) (hnone : P none)
    (hsome : ∀ publishing stage, (Program.ask r next).Obeys (Sends publishing) Answered stage →
      Course publishing visits stage → P (some (.ok publishing))) : P plan := by
  match plan, h with
  | none, _ => exact hnone
  | some (.error e), h => cases hrest.symm.trans h.1
  | some (.ok publishing), ⟨stage, hobeys, hc⟩ => exact hsome publishing stage (hrest ▸ hobeys) hc

theorem Kept.goOn (h : Kept call visits plan) (hrest : call.rest = .ask r next) (who : Option Nat)
    {a : Requests.Answer r} {call' : Call}
    (ha : s.answer i call cancelled cancelFirst r = (.answered a call', left)) :
    Kept { call' with rest := next a } (visits ++ [⟨who, s, left⟩]) plan := by
  refine h.elim hrest trivial fun publishing stage hobeys hc => ?_
  obtain ⟨stage', hm, hc'⟩ := s.answer_sends i call cancelled cancelFirst hc hobeys.allowed who ha
  exact ⟨stage', hobeys.next hm, hc'⟩

/-- A call that has no answer yet goes on as it was. -/
theorem Kept.look (h : Kept call visits plan) (hrest : call.rest = .ask r next) (who : Option Nat)
    (hno : ∀ a call', (s.answer i call cancelled cancelFirst r).1 ≠ .answered a call') :
    Kept ((s.answer i call cancelled cancelFirst r).1.after call)
      (visits ++ [⟨who, s, (s.answer i call cancelled cancelFirst r).2⟩]) plan := by
  obtain ⟨guard, look, hafter⟩ := s.after_answer i call cancelled cancelFirst r
  rw [hafter]
  refine h.elim hrest trivial fun publishing stage hobeys hc => ?_
  exact ⟨stage, hrest ▸ hobeys, hc.visit (s.traceless_answer i call cancelled cancelFirst who
    (s.isAside_of_unanswered i call cancelled cancelFirst hno))⟩

theorem Kept.release (h : Kept call visits plan) (hrest : call.rest = .ask r next)
    (guarantee : Guarantee) (publisher : ChannelPublisher) :
    Kept { call with
      rest := (Pooling.release guarantee publisher).bind fun _ => .done none } visits plan := by
  refine h.elim hrest trivial fun publishing stage hobeys hc => ⟨stage, ?_, hc⟩
  exact ((Pooling.release_sends guarantee publisher).mono fun _ _ _ => nofun).bind

theorem Kept.goAway (h : Kept call visits plan) (hrest : call.rest = .ask r next) (who : Option Nat) :
    Kept { call with rest := .done none } (visits ++ [⟨who, s, s.abandon i r⟩]) plan := by
  refine h.elim hrest trivial fun publishing stage hobeys hc => ⟨stage, nofun, hc.visit ?_⟩
  have hm := s.memory_abandon i r
  exact ⟨congrArg _ hm, fun queue => congrArg (Memory.ready · queue) hm⟩

end Kept

/-! ## All calls -/

namespace System

variable {broker : Broker} {s s' : System}

/-- What is kept whatever happens. -/
structure Good (broker : Broker) (s : System) : Prop where
  log : s.shared.memory.published = s.history.flatMap Visit.appended
  known : ∀ v ∈ s.history, ∀ i, v.call = some i → i < s.calls.length
  kept : ∀ i call, s.calls[i]? = some call → Kept call (s.visits i) (call.order.plan broker)

theorem good_new (broker : Broker) (config : PoolConfig) : Good broker (new broker config) where
  log := rfl
  known _ hv := absurd hv List.not_mem_nil
  kept _ _ hcall := nomatch List.getElem?_nil.symm.trans hcall

/-- A call that has not begun has made no visit. -/
theorem Good.visits_length (h : s.Good broker) : s.visits s.calls.length = [] := by
  refine List.filter_eq_nil_iff.mpr fun v hv hcall => ?_
  exact absurd (h.known v hv _ (beq_iff_eq.mp hcall)) (Nat.lt_irrefl _)

theorem Good.start (h : s.Good broker) (order : Order) : (s.start broker order).Good broker where
  log := h.log
  known v hv i hi := by
    simp only [System.start, List.length_append, List.length_singleton]
    exact Nat.lt_succ_of_lt (h.known v hv i hi)
  kept i call hcall := by
    obtain hcall | ⟨rfl, rfl⟩ := getElem?_append_cases hcall
    · exact h.kept i call hcall
    · exact h.visits_length ▸ kept_start broker order

/-- The log has got what was put into it between. -/
theorem Good.published_visit (h : s.Good broker) {left : Shared}
    (hgrown : s.shared.memory.published <+: left.memory.published) (who : Option Nat) :
    left.memory.published =
      (s.history ++ [(⟨who, s.shared, left⟩ : Visit)]).flatMap Visit.appended := by
  obtain ⟨more, hmore⟩ := hgrown
  simp [Visit.appended, ← h.log, ← hmore]

/-- One call goes on, perhaps with a visit of its own. -/
theorem Good.update (h : s.Good broker) {i : Nat} {call call' : Call} (hcall : s.calls[i]? = some call)
    {more : List Visit} (hmore : ∀ v ∈ more, v.call = some i)
    (hcalls : s'.calls = s.calls.set i call') (hhistory : s'.history = s.history ++ more)
    (hlog : s'.shared.memory.published = s'.history.flatMap Visit.appended)
    (hkept : Kept call' (s.visits i ++ more) (call.order.plan broker))
    (horder : call'.order = call.order) : s'.Good broker where
  log := hlog
  known v hv j hj := by
    rw [hcalls, List.length_set]
    rw [hhistory] at hv
    cases List.mem_append.mp hv with
    | inl hv => exact h.known v hv j hj
    | inr hv =>
      obtain rfl := Option.some.inj ((hmore v hv).symm.trans hj)
      exact (List.getElem?_eq_some_iff.mp hcall).1
  kept j call'' hj := by
    rw [hcalls] at hj
    rw [visits, hhistory, List.filter_append]
    obtain ⟨rfl, rfl⟩ | ⟨hne, hj⟩ := getElem?_set_cases hj
    · have hmine : more.filter (·.call == some j) = more :=
        List.filter_eq_self.mpr fun v hv => beq_iff_eq.mpr (hmore v hv)
      rw [hmine, horder]
      exact hkept
    · have hothers : more.filter (·.call == some j) = [] :=
        List.filter_eq_nil_iff.mpr fun v hv hv' =>
          hne (Option.some.inj ((beq_iff_eq.mp hv').symm.trans (hmore v hv)))
      rw [hothers, List.append_nil]
      exact h.kept j call'' hj

theorem Good.detach (h : s.Good broker) (r : Request) : (s.detach broker r).Good broker := by
  cases r with
  | detach publisher => exact h.start _
  | _ => exact h

theorem Good.run (h : s.Good broker) (i : Nat) (cancelled cancelFirst : Bool) :
    (s.run broker i cancelled cancelFirst).Good broker := by
  unfold System.run
  cases hcall : s.calls[i]? with
  | none => exact h
  | some call =>
    simp only
    cases hrest : call.rest with
    | done result => exact h
    | ask r next =>
      simp only
      have hk := h.kept i call hcall
      have hlog := h.published_visit (s.shared.published_answer i call cancelled cancelFirst r) (some i)
      have hlook := @Kept.look _ _ _ r next s.shared i cancelled cancelFirst hk hrest (some i)
      have horder : ((s.shared.answer i call cancelled cancelFirst r).1.after call).order =
          call.order := by
        obtain ⟨guard, look, hafter⟩ := s.shared.after_answer i call cancelled cancelFirst r
        rw [hafter]
      generalize ha : s.shared.answer i call cancelled cancelFirst r = answered at hlog hlook horder ⊢
      obtain ⟨reaction, left⟩ := answered
      have hself : ∀ v ∈ [(⟨some i, s.shared, left⟩ : Visit)], v.call = some i :=
        List.forall_mem_singleton.mpr rfl
      cases reaction with
      | waits =>
        obtain ⟨hlt, hget⟩ := List.getElem?_eq_some_iff.mp hcall
        exact h.update hcall hself (hget ▸ (List.set_getElem_self hlt).symm) rfl hlog (hlook nofun) rfl
      | goesOn call' =>
        exact h.update hcall hself rfl rfl hlog (hlook nofun) horder
      | answered a call' =>
        exact (h.update hcall hself rfl rfl hlog (hk.goOn hrest (some i) ha) horder).detach r

theorem Good.letGo (h : s.Good broker) (i : Nat) (publisher : ChannelPublisher) :
    (s.letGo i publisher).Good broker := by
  unfold System.letGo
  cases hcall : s.calls[i]? with
  | none => exact h
  | some call =>
    simp only
    have hk := h.kept i call hcall
    split
    · rename_i r next guarantee hrest hguard hlook
      refine h.update hcall (List.forall_mem_nil _) rfl (List.append_nil _).symm h.log ?_ rfl
      rw [List.append_nil]
      exact hk.release hrest guarantee publisher
    · rename_i r next hrest hguard hlook
      have hgrown : s.shared.memory.published <+: (s.shared.abandon i r).memory.published :=
        s.shared.memory_abandon i r ▸ List.prefix_refl _
      exact h.update hcall (List.forall_mem_singleton.mpr rfl) rfl rfl
        (h.published_visit hgrown (some i)) (hk.goAway hrest (some i)) rfl
    · exact h

theorem Good.befall (h : s.Good broker) (activity : Memory.Activity) :
    (s.visit none { s.shared with memory := s.shared.memory.act activity }).Good broker where
  log := h.published_visit (Memory.published_act s.shared.memory activity) none
  known v hv i hi := by
    cases List.mem_append.mp hv with
    | inl hv => exact h.known v hv i hi
    | inr hv =>
      obtain rfl := List.mem_singleton.mp hv
      cases hi
  kept i call hcall := by
    have hvisits : (s.visit none { s.shared with memory := s.shared.memory.act activity }).visits i =
        s.visits i := by
      simp [visit, visits]
    rw [hvisits]
    exact h.kept i call hcall

theorem Good.step (h : s.Good broker) (event : Event) : (s.step broker event).Good broker := by
  cases event with
  | start order => exact h.start order
  | run i cancelled cancelFirst => exact h.run i cancelled cancelFirst
  | letGo i publisher => exact h.letGo i publisher
  | befall activity => exact h.befall activity

theorem Good.after (h : s.Good broker) (events : List Event) : (s.after broker events).Good broker := by
  induction events generalizing s with
  | nil => exact h
  | cons event events ih => exact ih (h.step event)

end System

/-! ## What has come of them -/

section Effect

variable {broker : Broker} {s : System} {i : Nat} {call : Call}

theorem Call.result?_eq_some {result : Except PublishError Unit} (h : call.result? = some result) :
    call.rest = .done (some result) := by
  unfold result? at h
  split at h
  · rename_i hrest
    rw [hrest, h]
  · cases h

/-- What has been kept of a publish that has returned. -/
theorem Kept.returned (h : Kept call visits (some (.ok publishing)))
    {result : Except PublishError Unit} (hresult : call.result? = some result) :
    ∃ stage, Returned result stage ∧ Course publishing visits stage := by
  obtain ⟨stage, hobeys, hc⟩ := h
  rw [Call.result?_eq_some hresult] at hobeys
  exact ⟨stage, hobeys result rfl, hc⟩

/-- A publish that has failed has left no trace, and it has not failed because of what it published. -/
theorem Kept.failed (h : Kept call visits (some (.ok publishing))) {e : PublishError}
    (hresult : call.result? = some (.error e)) : (∀ v ∈ visits, v.Traceless) ∧
      (e.lacksPublisher = true ∨ ∃ cause, e = .transport cause) := by
  obtain ⟨stage, hreturned, hc⟩ := h.returned hresult
  obtain rfl | ⟨cause, rfl, rfl | rfl⟩ := hreturned
  · exact ⟨hc.2, .inl hc.1⟩
  · exact ⟨hc, .inr ⟨cause, rfl⟩⟩
  · exact ⟨hc, .inr ⟨cause, rfl⟩⟩

theorem Kept.effect (h : Kept call (s.visits i) (some (.ok publishing))) :
    Effect s i call publishing where
  success hresult := by
    obtain ⟨stage, rfl, hc⟩ := h.returned hresult
    exact hc
  failure e hresult := (h.failed hresult).1
  once := by
    obtain ⟨stage, -, hc⟩ := h
    exact hc.once
  kinds := by
    refine ⟨fun cause hresult => ?_, fun cause hresult => ?_⟩ <;>
    · obtain h | ⟨_, h⟩ := (h.failed hresult).2 <;> cases h

/-- A payload that can be published has the effect of its text. -/
theorem Effect.payload {α : Type} [Payload α] {destination : Destination} {value : α} {json : Json}
    (h : Effect s i call ⟨destination, json.encode⟩)
    (hvalid : broker.validator.validate value = .ok ()) (hjson : Payload.toJson value = .ok json) :
    PayloadEffect broker s i call destination value where
  success hresult := ⟨hvalid, json, hjson, h.success hresult⟩
  failure := h.failure
  once := h.once.imp_right fun hentries => ⟨json, hjson, hentries⟩
  invalid cause := by simp [h.kinds.1 cause, hvalid]
  refused cause := by simp [h.kinds.2 cause, hjson]
  unseen := by simp [h.kinds.1, h.kinds.2]

/-- One that is refused has not been brought to anybody. -/
theorem Kept.payload {α : Type} [Payload α] {cancel : TokenId} {destination : Destination} {value : α}
    {guarantee : Guarantee}
    (h : Kept call (s.visits i)
      ((Order.publishJson cancel destination value guarantee).plan broker)) :
    PayloadEffect broker s i call destination value := by
  simp only [Order.plan] at h
  cases hvalid : broker.validator.validate value with
  | error cause =>
    simp only [hvalid] at h
    obtain ⟨hrest, hvisits⟩ := h
    constructor <;> simp [Call.result?, hrest, hvisits, hvalid, System.entries]
  | ok =>
    cases hjson : Payload.toJson value with
    | error cause =>
      simp only [hvalid, hjson] at h
      obtain ⟨hrest, hvisits⟩ := h
      constructor <;> simp [Call.result?, hrest, hvisits, hvalid, hjson, System.entries]
    | ok json =>
      simp only [hvalid, hjson] at h
      exact h.effect.payload hvalid hjson

end Effect

/-- Whatever happens to a broker, a publish that succeeds has put its message into the log once, and one
that fails has put nothing anywhere. -/
theorem accounted_after (broker : Broker) (config : PoolConfig) (events : List Event) :
    Accounted broker ((System.new broker config).after broker events) := by
  have h := (System.good_new broker config).after events
  refine ⟨h.log, fun i call cancel destination body guarantee hcall horder => ?_,
    fun i call α _ cancel destination value guarantee hcall horder => ?_⟩
  · have hk := h.kept i call hcall
    rw [horder] at hk
    exact hk.effect
  · have hk := h.kept i call hcall
    rw [horder] at hk
    exact hk.payload

/-- Two publishes take turns with one publisher; the first has no exchange to go to. -/
example :
    let runs := (List.range 20).flatMap fun _ => [Event.run 0 false false, Event.run 1 false false]
    let s := (System.new { connected := true } { initialSize := 1, maxSize := 1 }).after
      { connected := true } ([.befall (.request .openChannel),
        .befall (.request (.declareQueue 0 { name := "jobs" })),
        .start (.publish 0 { exchange := "none", routingKey := "jobs" } [3] .atMostOnce),
        .start (.publish 0 { routingKey := "jobs" } [7] .atMostOnce)] ++ runs)
    (s.calls.map fun call => call.result?.map (·.isOk), (s.entries 0).map (·.body),
      (s.entries 1).map (·.body)) = ([some false, some true], [], [[7]]) := by decide +kernel

end Posting

end Courier
