import Courier.Broker
import Courier.Proofs.Consumer.Layering
import Mathlib.Data.List.Forall2
import Mathlib.Data.List.Infix

/-!
# What consumers keep of their registration

Groups and brokers are set up by calls in any order: middlewares are appended, validators of brokers
replaced, consumers registered, and groups taken over. The history of these calls says what a group had
when a consumer was registered in it (`middlewaresOf`, `validatorOf`), and which registrations a group
has now (`roster`), each known by the number of its call.

`captured_after` compares the two: the consumers of a group are those of its roster, and each has the
middlewares and the validator of the time of its registration. A call moves consumers and their numbers
alike (`Call.gather`), and changes none that is there.
-/

namespace Courier.Grouping

/-- A group of its own, or the one that a broker has, by the number of its making. -/
inductive Place where
  | group (number : Nat)
  | broker (number : Nat)
  deriving DecidableEq

/-- A call that sets up a group. -/
inductive Call : Type 1 where
  | useMiddleware (place : Place) (middleware : Middleware)
  | withValidator (broker : Nat) (validator : Validator)
  | addConsumer (place : Place) {α : Type} [Payload α] (config : ConsumerConfig)
      (handle : α → DeliveryMeta → Handling Outcome) (own : List Middleware)
  | addRawConsumer (place : Place) (config : ConsumerConfig)
      (handle : Bytes → DeliveryMeta → Handling Outcome) (own : List Middleware)
  /-- The other group is handed over, and nobody has it any more. -/
  | merge (place : Place) (other : Nat)

/-- All groups and brokers. -/
structure System where
  groups : Nat → Group
  brokers : Nat → Broker

namespace System

/-- Groups have the validators that they are made with, brokers begin with one that reports all. -/
def new (validators : Nat → Validator) (connected : Nat → Bool) : System where
  groups n := { validator := validators n }
  brokers n := { connected := connected n }

variable (s : System)

def group : Place → Group
  | .group n => s.groups n
  | .broker n => (s.brokers n).group

/-- Something is done to a group, or to a broker with its group. -/
def change (place : Place) (group : Group → Group) (broker : Broker → Broker) : System :=
  match place with
  | .group n => { s with groups := fun i => if i = n then group (s.groups i) else s.groups i }
  | .broker n => { s with brokers := fun i => if i = n then broker (s.brokers i) else s.brokers i }

/-- A group gives its consumers away. -/
def handOver (n : Nat) : System :=
  { s with groups := fun i => if i = n then { s.groups i with consumers := [] } else s.groups i }

def step : Call → System
  | .useMiddleware place middleware =>
    s.change place (·.useMiddleware middleware) (·.useMiddleware middleware)
  | .withValidator broker validator =>
    s.change (.broker broker) (·.withValidator validator) (·.withValidator validator)
  | @Call.addConsumer place _ _ config handle own =>
    s.change place (·.addConsumer config handle own) (·.addConsumer config handle own)
  | .addRawConsumer place config handle own =>
    s.change place (·.addRawConsumer config handle own) (·.addRawConsumer config handle own)
  | .merge place other =>
    (s.handOver other).change place (·.merge (s.groups other)) (·.merge (s.groups other))

def after (calls : List Call) : System :=
  calls.foldl step s

end System

/-! ## What the history says -/

namespace Call

/-- Where it is made. -/
def place : Call → Place
  | useMiddleware place _ => place
  | withValidator broker _ => .broker broker
  | @addConsumer place _ _ _ _ _ => place
  | addRawConsumer place _ _ _ => place
  | merge place _ => place

/-- The middleware that it appends there. -/
def middleware? : Call → Option Middleware
  | useMiddleware _ middleware => some middleware
  | _ => none

/-- The validator that it puts there. -/
def validator? : Call → Option Validator
  | withValidator _ validator => some validator
  | _ => none

end Call

/-- The middlewares that were appended at a place, in their order. -/
def middlewaresOf (calls : List Call) (place : Place) : List Middleware :=
  (calls.filter (·.place = place)).filterMap Call.middleware?

/-- The validator that was put there last, or that has been there from the beginning. -/
def validatorOf (validators : Nat → Validator) (calls : List Call) (place : Place) : Validator :=
  ((calls.filter (·.place = place)).filterMap Call.validator?).getLast?.getD <|
    match place with
    | .group n => validators n
    | .broker _ => {}

/-- What is registered: settings, a handler, and the middlewares that its messages pass. -/
structure Entry where
  config : ConsumerConfig
  middlewares : List Middleware
  inner : Handler

/-- What a call registers where there are these middlewares and this validator. -/
def Call.entryOf? (middlewares : List Middleware) (validator : Validator) : Call → Option Entry
  | @addConsumer _ _ _ config handle own => some ⟨config, middlewares ++ own, .typed validator handle⟩
  | addRawConsumer _ config handle own => some ⟨config, middlewares ++ own, .raw handle⟩
  | _ => none

/-- What the `i`-th call of a history has registered. -/
def entryOf? (validators : Nat → Validator) (calls : List Call) (i : Nat) : Option Entry :=
  calls[i]?.bind fun call =>
    call.entryOf? (middlewaresOf (calls.take i) call.place)
      (validatorOf validators (calls.take i) call.place)

/-- The lists of the places after a call: what it registers comes last at its place, and what a group
has that is handed over comes last where it is taken over. -/
def Call.gather {α : Type} (new : Option α) (lists : Place → List α) : Call → Place → List α
  | @addConsumer place _ _ _ _ _, p => lists p ++ if p = place then new.toList else []
  | addRawConsumer place _ _ _, p => lists p ++ if p = place then new.toList else []
  | merge place other, p =>
    (if p = .group other then [] else lists p) ++ if p = place then lists (.group other) else []
  | _, p => lists p

/-- It is in the list of one place, once, and in no other. -/
def Once {α : Type} [DecidableEq α] (lists : Place → List α) (a : α) : Prop :=
  ∃ place, ∀ p, (lists p).count a = if p = place then 1 else 0

/-- The numbers of the calls that have registered the consumers of each place. -/
def roster (calls : List Call) : Place → List Nat :=
  calls.zipIdx.foldl (fun lists (call, i) => call.gather (some i) lists) fun _ => []

/-- The handler passes messages through the middlewares of the entry to its own handler. -/
structure Entry.Passes (entry : Entry) (handler : Handler) : Prop where
  bare : entry.middlewares = [] → handler = entry.inner
  /-- Each middleware is around those behind it, and within those before it. -/
  middle : ∀ before middleware behind, entry.middlewares = before ++ middleware :: behind →
    handler = Middleware.chain before (middleware (Middleware.chain behind entry.inner))
  /-- The first one sees a message first and its outcome last. -/
  around : ∀ layers : List Around, entry.middlewares = layers.map Around.middleware →
    ∀ message, handler message = (Around.enter layers message).bind fun message =>
      (entry.inner message).bind (Around.leave layers.reverse)

/-- What has come of a history of calls. -/
structure Captured (validators : Nat → Validator) (connected : Nat → Bool) (calls : List Call) :
    Prop where
  /-- Each consumer of a group is what one call has registered, with what its place had then. -/
  consumers : ∀ place, List.Forall₂
    (fun i consumer => ∃ entry, entryOf? validators calls i = some entry ∧
      consumer.config = entry.config ∧ entry.Passes consumer.handler)
    (roster calls place) (((System.new validators connected).after calls).group place).consumers
  /-- What was registered is in one place, once. -/
  once : ∀ i entry, entryOf? validators calls i = some entry → Once (roster calls) i
  /-- A group that takes over another one has its own consumers first. -/
  merged : ∀ before place other rest, calls = before ++ .merge place other :: rest →
    place ≠ .group other →
    (((System.new validators connected).after (before ++ [.merge place other])).group
        place).consumers =
      (((System.new validators connected).after before).group place).consumers ++
        (((System.new validators connected).after before).group (.group other)).consumers
  /-- The consumers of a group stay together and in order, and none of them changes. -/
  kept : ∀ before rest place, calls = before ++ rest → ∃ place',
    (((System.new validators connected).after before).group place).consumers <:+:
      (((System.new validators connected).after calls).group place').consumers

/-! ## One call -/

section Step

variable {s : System} {place : Place}

theorem group_change {group : Group → Group} {broker : Broker → Broker}
    (h : ∀ b, (broker b).group = group b.group) (p : Place) :
    (s.change place group broker).group p =
      if p = place then group (s.group p) else s.group p := by
  cases place with
  | group n =>
    cases p with
    | broker i => rfl
    | group i => simp only [System.change, System.group, Place.group.injEq]
  | broker n =>
    cases p with
    | group i => rfl
    | broker i =>
      simp only [System.change, System.group, Place.broker.injEq]
      split
      · exact h _
      · rfl

theorem group_handOver (n : Nat) (p : Place) :
    (s.handOver n).group p =
      { s.group p with consumers := if p = .group n then [] else (s.group p).consumers } := by
  cases p with
  | broker i => rfl
  | group i =>
    simp only [System.handOver, System.group, Place.group.injEq]
    split <;> rfl

theorem group_merge (other : Nat) (p : Place) :
    (s.step (.merge place other)).group p =
      { s.group p with
        consumers := (Call.merge place other).gather none (fun p => (s.group p).consumers) p } := by
  rw [System.step, group_change fun b => rfl, group_handOver]
  by_cases hp : p = place
  · simp only [if_pos hp, Call.gather]
    rfl
  · simp only [if_neg hp, Call.gather, List.append_nil]

/-- A call leaves the middlewares and the validators of other places alone. -/
theorem group_step_of_ne {call : Call} {p : Place} (hp : p ≠ call.place) :
    ((s.step call).group p).middlewares = (s.group p).middlewares ∧
      ((s.step call).group p).validator = (s.group p).validator := by
  cases call with
  | merge place other => rw [group_merge]; exact ⟨rfl, rfl⟩
  | _ => rw [System.step, group_change fun b => rfl, if_neg (by exact hp)]; exact ⟨rfl, rfl⟩

theorem middlewares_step (call : Call) (p : Place) :
    ((s.step call).group p).middlewares = (s.group p).middlewares ++ middlewaresOf [call] p := by
  by_cases hp : p = call.place
  · have hone : middlewaresOf [call] p = call.middleware?.toList := by
      cases h : call.middleware? <;> simp [middlewaresOf, hp, h]
    rw [hone]
    cases call with
    | merge place other => rw [group_merge]; exact (List.append_nil _).symm
    | useMiddleware place middleware =>
      rw [System.step, group_change fun b => rfl, if_pos (by exact hp)]
      rfl
    | _ =>
      rw [System.step, group_change fun b => rfl, if_pos (by exact hp)]
      exact (List.append_nil _).symm
  · have hnone : middlewaresOf [call] p = [] := by simp [middlewaresOf, Ne.symm hp]
    rw [hnone, List.append_nil, (group_step_of_ne hp).1]

/-- The validators that were put at a place. -/
theorem validator_step (call : Call) (p : Place) :
    ((s.step call).group p).validator =
      (([call].filter (·.place = p)).filterMap Call.validator?).getLast?.getD
        (s.group p).validator := by
  by_cases hp : p = call.place
  · have hone : ([call].filter (·.place = p)).filterMap Call.validator? = call.validator?.toList := by
      cases h : call.validator? <;> simp [hp, h]
    rw [hone]
    cases call with
    | merge place other => rw [group_merge]; rfl
    | _ =>
      rw [System.step, group_change fun b => rfl, if_pos (by exact hp)]
      rfl
  · have hnone : [call].filter (·.place = p) = [] := by simp [Ne.symm hp]
    rw [hnone, (group_step_of_ne hp).2]
    rfl

/-- The consumer of an entry. -/
def Entry.consumer (entry : Entry) : Consumer :=
  ⟨entry.config, Middleware.chain entry.middlewares entry.inner⟩

theorem consumers_step (call : Call) (p : Place) :
    ((s.step call).group p).consumers =
      call.gather ((call.entryOf? (s.group call.place).middlewares
        (s.group call.place).validator).map Entry.consumer) (fun p => (s.group p).consumers) p := by
  cases call with
  | merge place other => rw [group_merge]; rfl
  | useMiddleware place middleware =>
    rw [System.step, group_change fun b => rfl]
    split <;> rfl
  | withValidator broker validator =>
    rw [System.step, group_change fun b => rfl]
    split <;> rfl
  | addConsumer place config handle own =>
    rw [System.step, group_change fun b => rfl]
    by_cases hp : p = place
    · subst hp
      simp only [Call.gather, if_true]
      rfl
    · simp only [Call.gather, if_neg hp, List.append_nil]
  | addRawConsumer place config handle own =>
    rw [System.step, group_change fun b => rfl]
    by_cases hp : p = place
    · subst hp
      simp only [Call.gather, if_true]
      rfl
    · simp only [Call.gather, if_neg hp, List.append_nil]

end Step

/-! ## Lists of all places -/

section Lists

variable {α β : Type} {lists : Place → List α} {new : Option α} {call : Call}

theorem map_gather (f : α → β) (p : Place) :
    (call.gather new lists p).map f = call.gather (new.map f) (fun p => (lists p).map f) p := by
  have hnew : new.toList.map f = (new.map f).toList := by cases new <;> rfl
  cases call with
  | merge place other =>
    simp only [Call.gather, List.map_append]
    congr 1 <;> split <;> rfl
  | useMiddleware place middleware => rfl
  | withValidator broker validator => rfl
  | _ =>
    simp only [Call.gather, List.map_append]
    congr 1
    split <;> first | exact hnew | rfl

theorem mem_gather {a : α} {p : Place} (h : a ∈ call.gather new lists p) :
    (∃ p, a ∈ lists p) ∨ new = some a := by
  cases call with
  | useMiddleware place middleware => exact .inl ⟨p, h⟩
  | withValidator broker validator => exact .inl ⟨p, h⟩
  | merge place other =>
    refine .inl ((List.mem_append.mp h).elim (fun h => ⟨p, ?_⟩) fun h => ⟨.group other, ?_⟩)
    · split at h
      · cases h
      · exact h
    · split at h
      · exact h
      · cases h
  | _ =>
    refine (List.mem_append.mp h).imp (fun h => ⟨p, h⟩) fun h => ?_
    split at h
    · exact Option.mem_toList.mp h
    · cases h

/-- The list of a place is then part of the list of that place, or of the one that has taken it over. -/
theorem infix_gather (new : Option α) (lists : Place → List α) (call : Call) (p : Place) :
    ∃ p', lists p <:+: call.gather new lists p' := by
  cases call with
  | useMiddleware place middleware => exact ⟨p, List.infix_refl _⟩
  | withValidator broker validator => exact ⟨p, List.infix_refl _⟩
  | merge place other =>
    by_cases hp : p = .group other
    · subst hp
      refine ⟨place, ?_⟩
      simp only [Call.gather, if_true]
      exact (List.suffix_append _ _).isInfix
    · refine ⟨p, ?_⟩
      simp only [Call.gather, if_neg hp]
      exact (List.prefix_append _ _).isInfix
  | _ => exact ⟨p, (List.prefix_append _ _).isInfix⟩

theorem Once.gather [DecidableEq α] {a : α} (h : Once lists a) (hnew : new ≠ some a) (call : Call) :
    Once (call.gather new lists) a := by
  obtain ⟨place, hcount⟩ := h
  have hfresh (p q : Place) : (if p = q then new.toList else []).count a = 0 := by
    refine List.count_eq_zero.mpr fun hmem => ?_
    split at hmem
    · exact hnew (Option.mem_toList.mp hmem)
    · cases hmem
  cases call with
  | useMiddleware _ _ => exact ⟨place, hcount⟩
  | withValidator _ _ => exact ⟨place, hcount⟩
  | merge into other =>
    have hgathered (p : Place) : ((Call.merge into other).gather new lists p).count a =
        (if p = .group other then 0 else (lists p).count a) +
          if p = into then (lists (.group other)).count a else 0 := by
      rw [Call.gather, List.count_append]
      congr 1 <;> split <;> rfl
    by_cases hplace : place = .group other
    · refine ⟨into, fun p => ?_⟩
      rw [hgathered, hcount, hcount, ← hplace, if_pos rfl]
      by_cases hp : p = place <;> simp [hp]
    · refine ⟨place, fun p => ?_⟩
      rw [hgathered, hcount, hcount, if_neg (Ne.symm hplace), ite_self, Nat.add_zero]
      by_cases hp : p = .group other
      · rw [if_pos hp, hp, if_neg (Ne.symm hplace)]
      · rw [if_neg hp]
  | _ => exact ⟨place, fun p => by rw [Call.gather, List.count_append, hfresh, Nat.add_zero, hcount]⟩

end Lists

/-! ## Any history -/

section History

variable {validators : Nat → Validator} {connected : Nat → Bool} {calls : List Call}

theorem System.after_append (s : System) (before rest : List Call) :
    s.after (before ++ rest) = (s.after before).after rest :=
  List.foldl_append

theorem System.after_concat (s : System) (calls : List Call) (call : Call) :
    s.after (calls ++ [call]) = (s.after calls).step call :=
  s.after_append calls [call]

theorem middlewaresOf_concat (calls : List Call) (call : Call) (place : Place) :
    middlewaresOf (calls ++ [call]) place =
      middlewaresOf calls place ++ middlewaresOf [call] place := by
  simp only [middlewaresOf, List.filter_append, List.filterMap_append]

theorem middlewares_after (validators : Nat → Validator) (connected : Nat → Bool) (calls : List Call)
    (place : Place) :
    (((System.new validators connected).after calls).group place).middlewares =
      middlewaresOf calls place := by
  induction calls using List.reverseRecOn with
  | nil => cases place <;> rfl
  | append_singleton calls call ih =>
    rw [System.after_concat, middlewares_step, ih, middlewaresOf_concat]

theorem validator_after (validators : Nat → Validator) (connected : Nat → Bool) (calls : List Call)
    (place : Place) :
    (((System.new validators connected).after calls).group place).validator =
      validatorOf validators calls place := by
  induction calls using List.reverseRecOn with
  | nil => cases place <;> rfl
  | append_singleton calls call ih =>
    rw [System.after_concat, validator_step, ih]
    unfold validatorOf
    rw [List.filter_append, List.filterMap_append, List.getLast?_append, Option.getD_or]

theorem roster_concat (calls : List Call) (call : Call) :
    roster (calls ++ [call]) = call.gather (some calls.length) (roster calls) := by
  rw [roster, List.zipIdx_append, List.foldl_append, Nat.zero_add]
  rfl

theorem lt_of_mem_roster {i : Nat} {place : Place} (h : i ∈ roster calls place) : i < calls.length := by
  induction calls using List.reverseRecOn generalizing place with
  | nil => cases h
  | append_singleton calls call ih =>
    rw [List.length_append, List.length_singleton]
    rw [roster_concat] at h
    obtain ⟨p, hp⟩ | hnew := mem_gather h
    · exact Nat.lt_succ_of_lt (ih hp)
    · cases hnew
      exact Nat.lt_succ_self _

/-- What is called later makes no difference to what was registered. -/
theorem entryOf?_append {i : Nat} (hi : i < calls.length) (more : List Call) :
    entryOf? validators (calls ++ more) i = entryOf? validators calls i := by
  rw [entryOf?, entryOf?, List.getElem?_append_left hi,
    List.take_append_of_le_length (Nat.le_of_lt hi)]

theorem entryOf?_concat (calls : List Call) (call : Call) :
    entryOf? validators (calls ++ [call]) calls.length =
      call.entryOf? (middlewaresOf calls call.place) (validatorOf validators calls call.place) := by
  rw [entryOf?, List.getElem?_concat_length, List.take_left]
  rfl

/-- A call that registers something puts it where it puts its own number. -/
theorem gather_entry {α : Type} {lists : Place → List α} {call : Call} {new new' : Option α}
    (h : ∀ middlewares validator, call.entryOf? middlewares validator ≠ none → new = new') :
    call.gather new lists = call.gather new' lists := by
  cases call with
  | addConsumer place config handle own => rw [h [] {} nofun]
  | addRawConsumer place config handle own => rw [h [] {} nofun]
  | _ => rfl

/-- The consumers of a group are those of its roster. -/
theorem consumers_after (validators : Nat → Validator) (connected : Nat → Bool) (calls : List Call)
    (place : Place) :
    (roster calls place).map (fun i => (entryOf? validators calls i).map Entry.consumer) =
      (((System.new validators connected).after calls).group place).consumers.map some := by
  induction calls using List.reverseRecOn generalizing place with
  | nil => cases place <;> rfl
  | append_singleton calls call ih =>
    have hold (p : Place) : (roster calls p).map
        (fun i => (entryOf? validators (calls ++ [call]) i).map Entry.consumer) =
          (((System.new validators connected).after calls).group p).consumers.map some := by
      rw [← ih p]
      refine List.map_congr_left fun i hi => ?_
      rw [entryOf?_append (lt_of_mem_roster hi)]
    rw [System.after_concat, consumers_step, roster_concat, map_gather, map_gather, funext hold,
      middlewares_after, validator_after, Option.map_some, entryOf?_concat]
    refine congrFun (gather_entry fun middlewares validator hentry => ?_) place
    cases call with
    | addConsumer place config handle own => rfl
    | addRawConsumer place config handle own => rfl
    | _ => exact absurd rfl hentry

theorem Entry.passes (entry : Entry) : entry.Passes entry.consumer.handler where
  bare h := by rw [consumer, h]; rfl
  middle before middleware behind h := by rw [consumer, h, Middleware.chain_middle]
  around layers h message := by rw [consumer, h]; exact Around.chain_around layers _ message

/-- A number that is new comes into one list, once. -/
theorem once_gather {lists : Place → List Nat} {call : Call} {i : Nat} (hnew : ∀ p, i ∉ lists p)
    {middlewares : List Middleware} {validator : Validator} {entry : Entry}
    (h : call.entryOf? middlewares validator = some entry) : Once (call.gather (some i) lists) i := by
  have hcount (p : Place) : (lists p).count i = 0 := List.count_eq_zero.mpr (hnew p)
  have hone (place p : Place) :
      (lists p ++ if p = place then (some i).toList else []).count i = if p = place then 1 else 0 := by
    rw [List.count_append, hcount, Nat.zero_add]
    split <;> simp
  cases call with
  | addConsumer place config handle own => exact ⟨place, hone place⟩
  | addRawConsumer place config handle own => exact ⟨place, hone place⟩
  | _ => cases h

theorem once_after {i : Nat} {entry : Entry} (h : entryOf? validators calls i = some entry) :
    Once (roster calls) i := by
  induction calls using List.reverseRecOn with
  | nil => cases h
  | append_singleton calls call ih =>
    rw [roster_concat]
    have hi : i < calls.length + 1 := by
      obtain ⟨_, hcall, -⟩ := Option.bind_eq_some_iff.mp h
      simpa using (List.getElem?_eq_some_iff.mp hcall).1
    obtain hlt | rfl := Nat.lt_succ_iff_lt_or_eq.mp hi
    · rw [entryOf?_append hlt] at h
      exact (ih h).gather (fun he => Nat.ne_of_gt hlt (Option.some.inj he)) call
    · rw [entryOf?_concat] at h
      exact once_gather (fun p hp => Nat.lt_irrefl _ (lt_of_mem_roster hp)) h

/-- No call takes the consumers of a group apart or changes one. -/
theorem infix_after (s : System) (calls : List Call) (place : Place) :
    ∃ place', (s.group place).consumers <:+: ((s.after calls).group place').consumers := by
  induction calls generalizing s place with
  | nil => exact ⟨place, List.infix_refl _⟩
  | cons call calls ih =>
    obtain ⟨next, hnext⟩ := infix_gather
      ((call.entryOf? (s.group call.place).middlewares (s.group call.place).validator).map
        Entry.consumer)
      (fun p => (s.group p).consumers) call place
    obtain ⟨place', hplace'⟩ := ih (s.step call) next
    rw [← consumers_step] at hnext
    exact ⟨place', hnext.trans hplace'⟩

end History

/-- Whatever was called, in whichever order, consumers have what their group had when they were
registered in it, and groups have all consumers that they have taken over. -/
theorem captured_after (validators : Nat → Validator) (connected : Nat → Bool) (calls : List Call) :
    Captured validators connected calls where
  consumers place := by
    have heq := consumers_after validators connected calls place
    rw [← List.forall₂_eq_eq_eq, List.forall₂_map_left_iff, List.forall₂_map_right_iff] at heq
    refine heq.imp fun i consumer h => ?_
    obtain ⟨entry, hentry, rfl⟩ := Option.map_eq_some_iff.mp h
    exact ⟨entry, hentry, rfl, entry.passes⟩
  once _ _ h := once_after h
  merged before place other rest _ hplace := by
    rw [System.after_concat, consumers_step, Call.gather, if_neg hplace, if_pos rfl]
  kept before rest place h := by
    subst h
    rw [System.after_append]
    exact infix_after _ rest place

end Courier.Grouping
