import Courier.Consumer.Router
import Courier.Proofs.Validation
import Mathlib.Data.Finset.Card

/-!
# Where a router sends messages

A router is told by what was registered at it, in order. Of the registrations under a name the last
one counts (`Registration.last`), and so it does of the defaults. `Router.Reflects` says that a
router holds just these, and `reflects_registered` that every router does. `Dispatches` is what that
means for messages: each of them is handed to one handler at most, and a message that has a route is
never handed to another one.
-/

namespace Courier

/-- Something that is registered at a router: a handler for the events of a type, or one for the
messages without a route. -/
inductive Registration where
  | route (α : Type) [EventPayload α] (handle : α → DeliveryMeta → Handling Outcome)
  | fallback (handle : Bytes → DeliveryMeta → Handling Outcome)

namespace Registration

/-- The name that it is under. -/
def name? : Registration → Option String
  | @route α _ _ => some (EventPayload.eventName α)
  | .fallback _ => none

/-- What a router with a validator keeps of it. -/
def handler (validator : Validator) : Registration → Handler
  | @route _ _ handle => Handler.typed validator handle
  | .fallback handle => Handler.raw handle

section Parts

variable {α : Type} [EventPayload α] (handle : α → DeliveryMeta → Handling Outcome)
  (handleRaw : Bytes → DeliveryMeta → Handling Outcome) (validator : Validator)

@[simp] theorem name?_route : (route α handle).name? = some (EventPayload.eventName α) := rfl

@[simp] theorem name?_fallback : (fallback handleRaw).name? = none := rfl

@[simp] theorem handler_route :
    (route α handle).handler validator = Handler.typed validator handle := rfl

@[simp] theorem handler_fallback :
    (fallback handleRaw).handler validator = Handler.raw handleRaw := rfl

end Parts

/-- The last one under a name, or without one. -/
def last (rs : List Registration) (name : Option String) : Option Registration :=
  (rs.filter (·.name? = name)).getLast?

theorem last_eq_none {rs : List Registration} {name : Option String}
    (h : ∀ r ∈ rs, r.name? ≠ name) : last rs name = none := by
  simpa [last, List.filter_eq_nil_iff] using h

@[simp] theorem last_append (rs : List Registration) (r : Registration) (name : Option String) :
    last (rs ++ [r]) name = if r.name? = name then some r else last rs name := by
  by_cases h : r.name? = name <;> simp [last, List.filter_append, h]

end Registration

namespace Router

open Registration (last)

/-! ## The routes -/

section Routes

variable (name : String) (handler : Handler) (routes : List (String × Handler))

theorem lookup_insertRoute (key : String) :
    (insertRoute name handler routes).lookup key =
      if name = key then some handler else routes.lookup key := by
  by_cases hkey : name = key
  · rw [if_pos hkey, ← hkey, lookup_insertRoute_self]
  · have hother : (key == name) = false := beq_false_of_ne (Ne.symm hkey)
    rw [if_neg hkey]
    induction routes with
    | nil => simp [insertRoute, List.lookup_cons, hother]
    | cons r rest ih =>
      obtain ⟨n, h⟩ := r
      rw [insertRoute]
      split
      case isTrue hn => simp [List.lookup_cons, hn, hother]
      case isFalse => rw [List.lookup_cons, List.lookup_cons, ih]

/-- A name that is there keeps its place, and one that is not gets the last place. -/
theorem names_insertRoute :
    (insertRoute name handler routes).map Prod.fst =
      if name ∈ routes.map Prod.fst then routes.map Prod.fst else routes.map Prod.fst ++ [name] := by
  induction routes with
  | nil => simp [insertRoute]
  | cons r rest ih =>
    obtain ⟨n, h⟩ := r
    simp only [insertRoute]
    split
    case isTrue hn => simp [hn]
    case isFalse hn =>
      simp only [List.map_cons, List.mem_cons, ih, Ne.symm hn, false_or]
      split <;> rfl

end Routes

/-! ## The registrations -/

def register (router : Router) : Registration → Router
  | @Registration.route α _ handle => router.route α handle
  | .fallback handle => router.withDefault handle

/-- A router at which this was registered. -/
def registered (validator : Validator) (rs : List Registration) : Router :=
  rs.foldl register { validator }

/-- A router holds what was registered last. -/
structure Reflects (validator : Validator) (rs : List Registration) (router : Router) : Prop where
  validator_eq : router.validator = validator
  lookup_eq : ∀ key, router.routes.lookup key = (last rs (some key)).map (·.handler validator)
  fallback_eq : router.fallback = (last rs none).map (·.handler validator)
  nodup : (router.routes.map Prod.fst).Nodup
  mem_names : ∀ key, key ∈ router.routes.map Prod.fst ↔ key ∈ rs.filterMap (·.name?)

variable {validator : Validator} {rs : List Registration} {router : Router}

theorem Reflects.register (h : Reflects validator rs router) (r : Registration) :
    Reflects validator (rs ++ [r]) (router.register r) := by
  obtain ⟨rfl, hlookup, hfallback, hnodup, hmem⟩ := h
  cases r with
  | fallback handle =>
    refine ⟨rfl, fun key => ?_, ?_, hnodup, fun key => ?_⟩
    · simpa [Router.register, withDefault] using hlookup key
    · simp [Router.register, withDefault]
    · simpa [Router.register, withDefault] using hmem key
  | route α handle =>
    refine ⟨rfl, fun key => ?_, ?_, ?_, fun key => ?_⟩
    · rw [Router.register, route, lookup_insertRoute, hlookup]
      by_cases hkey : EventPayload.eventName α = key <;> simp [hkey]
    · simpa [Router.register, route] using hfallback
    · rw [Router.register, route, names_insertRoute]
      split
      case isTrue => exact hnodup
      case isFalse hnew => exact List.nodup_append.mpr ⟨hnodup, List.nodup_singleton _, by grind⟩
    · rw [Router.register, route, names_insertRoute, List.filterMap_append, List.mem_append,
        ← hmem key]
      split
      case isTrue hold =>
        refine (or_iff_left_of_imp fun hmem => ?_).symm
        obtain rfl : key = EventPayload.eventName α := by simpa using hmem
        exact hold
      case isFalse => simp [eq_comm]

theorem reflects_registered (validator : Validator) (rs : List Registration) :
    Reflects validator rs (registered validator rs) := by
  induction rs using List.reverseRecOn with
  | nil => exact ⟨rfl, fun key => rfl, rfl, List.nodup_nil, by simp [registered]⟩
  | append_singleton rs r ih =>
    rw [registered, List.foldl_append]
    exact ih.register r

theorem Reflects.size_eq (h : Reflects validator rs router) :
    router.size = (rs.filterMap (·.name?)).toFinset.card := by
  have hnames : (router.routes.map Prod.fst).toFinset = (rs.filterMap (·.name?)).toFinset := by
    ext key
    simpa using h.mem_names key
  rw [← hnames, List.toFinset_card_of_nodup h.nodup, List.length_map, size]

/-! ## The messages -/

/-- What a router makes of messages. -/
structure Dispatches (validator : Validator) (rs : List Registration) (router : Router) :
    Prop where
  /-- A message whose routing key is the name of a route is handed, decoded, to the handler that was
  registered last under this name. -/
  handled : ∀ (message : Message) (α : Type) [EventPayload α]
    (handle : α → DeliveryMeta → Handling Outcome) (value : α),
    last rs (some message.info.routingKey) = some (.route α handle) →
    Json.decodeAs Payload.reader message.body = .ok value → Validate.broken value = [] →
      router.dispatch message = handle value message.info
  /-- If its body cannot be read it is handed to nobody. -/
  malformed : ∀ (message : Message) (α : Type) [EventPayload α]
    (handle : α → DeliveryMeta → Handling Outcome) (fault : Json.Fault),
    last rs (some message.info.routingKey) = some (.route α handle) →
    Json.decodeAs (Payload.reader : Json.Reader α) message.body = .error fault →
      router.dispatch message = Handling.fail (.decode (.deserialize fault))
  /-- If it breaks a rule it is handed to nobody. -/
  invalid : ∀ (message : Message) (α : Type) [EventPayload α]
    (handle : α → DeliveryMeta → Handling Outcome) (value : α),
    last rs (some message.info.routingKey) = some (.route α handle) →
    Json.decodeAs Payload.reader message.body = .ok value → Validate.broken value ≠ [] →
      router.dispatch message = Handling.fail
        (.decode (.validation ⟨validator.reported (Validate.broken value)⟩))
  /-- A message without a route is handed as it is to the default that was registered last. -/
  fallback : ∀ (message : Message) (handle : Bytes → DeliveryMeta → Handling Outcome),
    (∀ r ∈ rs, r.name? ≠ some message.info.routingKey) → last rs none = some (.fallback handle) →
      router.dispatch message = handle message.body message.info
  /-- Without a default it counts as handled. -/
  unhandled : ∀ message : Message, (∀ r ∈ rs, r.name? ≠ some message.info.routingKey) →
    (∀ r ∈ rs, r.name? ≠ none) → router.dispatch message = Handling.succeed
  /-- The router counts the names that have a route. -/
  size_eq : router.size = (rs.filterMap (·.name?)).toFinset.card

theorem dispatch_routed (h : Reflects validator rs router) {message : Message} {α : Type}
    [EventPayload α] {handle : α → DeliveryMeta → Handling Outcome}
    (hlast : last rs (some message.info.routingKey) = some (.route α handle)) :
    router.dispatch message = Handler.typed validator handle message := by
  rw [dispatch, h.lookup_eq, hlast]
  rfl

theorem dispatch_unrouted (h : Reflects validator rs router) {message : Message}
    (hnone : ∀ r ∈ rs, r.name? ≠ some message.info.routingKey) :
    router.dispatch message =
      match last rs none with
      | some r => r.handler validator message
      | none => Handling.succeed := by
  rw [dispatch, h.lookup_eq, Registration.last_eq_none hnone, h.fallback_eq]
  cases last rs none <;> rfl

/-- Whatever was registered, in whichever order, the router does so. -/
theorem registered_dispatches (validator : Validator) (rs : List Registration) :
    Dispatches validator rs (registered validator rs) where
  handled message α _ handle value hlast hread hbroken := by
    rw [dispatch_routed (reflects_registered validator rs) hlast]
    simp only [Handler.typed, decode, hread, validator.validate_eq, hbroken, if_pos]
  malformed message α _ handle fault hlast hread := by
    rw [dispatch_routed (reflects_registered validator rs) hlast]
    simp only [Handler.typed, decode, hread]
  invalid message α _ handle value hlast hread hbroken := by
    rw [dispatch_routed (reflects_registered validator rs) hlast]
    simp only [Handler.typed, decode, hread, validator.validate_eq, hbroken, if_false]
  fallback message handle hnone hlast := by
    rw [dispatch_unrouted (reflects_registered validator rs) hnone, hlast]
    rfl
  unhandled message hnone hdefault := by
    rw [dispatch_unrouted (reflects_registered validator rs) hnone,
      Registration.last_eq_none hdefault]
  size_eq := (reflects_registered validator rs).size_eq

end Router

end Courier
