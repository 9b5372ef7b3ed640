import Courier.Proofs.Memory.Changes
import Courier.Proofs.Protocol
import Courier.Publisher.Pooling

/-!
# A message on its way through a pool

A publish borrows a publisher, hands its message to the connection, once at most, and gives the
publisher back. `Sends` is the protocol of this: `Sending` is how far it has come and what it was told,
and by all else that it asks for no message gets into a queue. `publish_sends` says that a publish keeps
to it, and that what it answers in the end is what it was told (`Returned`).
-/

namespace Courier.Pooling

/-- Is it a request by which no message gets into a queue? -/
def Request.isAside : Request → Bool
  | .session r => !r.isPublish && !r.isRefusal
  | _ => true

/-- Does it ask for a publisher? -/
def Request.isAcquire : Request → Bool
  | .acquire .. => true
  | _ => false

theorem nonempty_answer (r : Request) : Nonempty (Requests.Answer r) := by
  cases r with
  | session r => exact Transport.nonempty_answer r
  | acquire => exact ⟨.error .cancelled⟩
  | putBack => exact ⟨none⟩
  | drain => exact ⟨[]⟩
  | _ => exact ⟨()⟩

/-! ## Handing it to the connection -/

/-- How a publisher hands a message over, by what it has been answered to it. -/
inductive Hands (publishing : Publishing) :
    Option (Except TransportError Unit) → (r : Transport.Request) → Requests.Answer r →
      Option (Except TransportError Unit) → Prop where
  | publish {channel : ChannelId} {options : PublishOptions} (result : Except TransportError Unit) :
      Hands publishing none (.publish channel publishing options) result (some result)
  | aside {told : Option (Except TransportError Unit)} {r : Transport.Request}
      (hp : r.isPublish = false) (hr : r.isRefusal = false) (a : Requests.Answer r) :
      Hands publishing told r a told

variable {publishing : Publishing} {α : Type} {told : Option (Except TransportError Unit)}

theorem hands_aside {r : Transport.Request} {next : Requests.Answer r → Transport.Session α}
    {post : α → Option (Except TransportError Unit) → Prop} (hp : r.isPublish = false)
    (hr : r.isRefusal = false) (h : ∀ a, (next a).Obeys (Hands publishing) post told) :
    (Program.ask r next).Obeys (Hands publishing) post told := by
  obtain ⟨a⟩ := Transport.nonempty_answer r
  refine ⟨⟨a, _, .aside hp hr a⟩, fun a told' hm => ?_⟩
  cases hm with
  | aside => exact h a
  | publish => cases hp

theorem hands_openFresh (publisher : ChannelPublisher) :
    publisher.openFresh.Obeys (Hands publishing) (fun _ told' => told' = told) told := by
  refine hands_aside rfl rfl fun opened => ?_
  cases opened with
  | error e => rfl
  | ok channel =>
    show (if publisher.confirmed then _ else _ : Transport.Session _).Obeys _ _ _
    split
    · refine hands_aside rfl rfl fun confirmed => ?_
      cases confirmed with
      | error e => exact hands_aside rfl rfl fun _ => rfl
      | ok => rfl
    · rfl

theorem hands_ready (publisher : ChannelPublisher) :
    publisher.ready.Obeys (Hands publishing) (fun _ told' => told' = told) told := by
  unfold ChannelPublisher.ready
  split
  · rfl
  · exact hands_openFresh publisher

theorem hands_closeAndDrop (channel : ChannelId) :
    (Transport.Session.closeAndDrop channel).Obeys (Hands publishing) (fun _ told' => told' = told)
      told :=
  hands_aside rfl rfl fun _ => hands_aside rfl rfl fun _ => rfl

/-- A message that has been sent was accepted. One that has not was refused, or there was no channel
for it. -/
theorem send_hands (publisher : ChannelPublisher) (publishing : Publishing) :
    (publisher.send publishing).Obeys (Hands publishing)
      (fun sent told => match sent.1 with
        | .ok () => told = some (.ok ())
        | .error e => told = none ∨ told = some (.error e))
      none := by
  refine ((hands_ready publisher).mono fun ready told htold => ?_).bind
  subst htold
  cases ready with
  | error e => exact .inl rfl
  | ok channel =>
    refine ⟨⟨_, _, .publish (.ok ())⟩, fun result told hm => ?_⟩
    cases hm with
    | aside hp => cases hp
    | publish =>
      cases result with
      | ok => rfl
      | error e => exact ((hands_closeAndDrop channel).mono fun _ _ htold => .inr htold).bind

/-! ## The whole of a publish -/

/-- How far a publish has come. -/
inductive Sending where
  | fresh
  /-- It has not got a publisher. -/
  | refused (e : PublishError)
  /-- It has got one, and this is what the connection has answered to the message. -/
  | lent (told : Option (Except TransportError Unit))

/-- The steps of a publish. -/
inductive Sends (publishing : Publishing) :
    Sending → (r : Request) → Requests.Answer r → Sending → Prop where
  | lent {guarantee : Guarantee} {cancel : Nat} (publisher : ChannelPublisher) :
      Sends publishing .fresh (.acquire guarantee cancel) (.ok publisher) (.lent none)
  | refused {guarantee : Guarantee} {cancel : Nat} (e : PublishError) :
      Sends publishing .fresh (.acquire guarantee cancel) (.error e) (.refused e)
  | publish {channel : ChannelId} {options : PublishOptions} (result : Except TransportError Unit) :
      Sends publishing (.lent none) (.session (.publish channel publishing options)) result
        (.lent (some result))
  | aside {stage : Sending} {r : Request} (h : r.isAside = true) (hr : r.isAcquire = false)
      (a : Requests.Answer r) : Sends publishing stage r a stage

/-- How a publish stands that answers this. -/
def Returned : Except PublishError Unit → Sending → Prop
  | .ok (), stage => stage = .lent (some (.ok ()))
  | .error e, stage => stage = .refused e ∨
      ∃ cause, e = .transport cause ∧ (stage = .lent none ∨ stage = .lent (some (.error cause)))

variable {stage : Sending}

theorem sends_aside {r : Request} {next : Requests.Answer r → Action α} {post : α → Sending → Prop}
    (hr : r.isAside = true) (hacquire : r.isAcquire = false)
    (h : ∀ a, (next a).Obeys (Sends publishing) post stage) :
    (Program.ask r next).Obeys (Sends publishing) post stage := by
  obtain ⟨a⟩ := nonempty_answer r
  refine ⟨⟨a, _, .aside hr hacquire a⟩, fun a stage' hm => ?_⟩
  cases hm with
  | aside => exact h a
  | publish => cases hr
  | lent => cases hacquire
  | refused => cases hacquire

/-- What a borrowed publisher asks of the connection, the publish asks. -/
theorem session_sends {p : Transport.Session α}
    {post : α → Option (Except TransportError Unit) → Prop} (hp : p.Obeys (Hands publishing) post told) :
    (session p).Obeys (Sends publishing) (fun a stage => ∃ told, post a told ∧ stage = .lent told)
      (.lent told) := by
  refine hp.interpret (fun told stage => stage = Sending.lent told) rfl
    fun r told stage hstage hallowed => ?_
  subst hstage
  obtain ⟨a, told', hm⟩ := hallowed
  cases hm with
  | aside hp hr a =>
    exact sends_aside (by simp [Request.isAside, hp, hr]) rfl fun a => ⟨told, .aside hp hr a, rfl⟩
  | publish result =>
    refine ⟨⟨_, _, .publish result⟩, fun result stage hm => ?_⟩
    cases hm with
    | publish => exact ⟨_, .publish result, rfl⟩
    | aside h => cases h

/-- A publisher can be given back at any stage. -/
theorem release_sends (guarantee : Guarantee) (publisher : ChannelPublisher) :
    (release guarantee publisher).Obeys (Sends publishing) (fun _ stage' => stage' = stage) stage := by
  refine sends_aside rfl rfl fun late => ?_
  cases late with
  | none => rfl
  | some late => exact sends_aside rfl rfl fun _ => rfl

/-- A publish hands over its message and nothing else, and answers what it was told. -/
theorem publish_sends (guarantee : Guarantee) (cancel : Nat) (publishing : Publishing) :
    (publish guarantee cancel publishing).Obeys (Sends publishing) Returned .fresh := by
  refine ⟨⟨_, _, .refused .cancelled⟩, fun acquired stage hm => ?_⟩
  cases hm with
  | aside _ hr => cases hr
  | refused e => exact .inl rfl
  | lent publisher =>
    refine ((session_sends (send_hands publisher publishing)).mono fun sent stage hsent => ?_).bind
    obtain ⟨result, publisher⟩ := sent
    obtain ⟨told, htold, rfl⟩ := hsent
    refine ((release_sends guarantee publisher).mono fun _ stage hstage => ?_).bind
    subst hstage
    cases result with
    | ok => exact congrArg Sending.lent htold
    | error e => exact .inr ⟨e, rfl, htold.imp (congrArg _) (congrArg _)⟩

end Courier.Pooling
