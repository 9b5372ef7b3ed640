import Courier.Proofs.Pipeline.System

/-!
# What one request of a cycle does

`Advanced` says what can come of answering a cycle, stage by stage: one operation on its transaction,
or one request to its broker. `advance_cases` proves that nothing else can, so what holds of a system
is proved of cycles by one case for each.
-/

namespace Courier.Pipeline

open Relay (Stage)

/-- A cycle that was at one stage has been answered and is at the next one. -/
inductive Advanced (s : System) (i : Nat) (p : Poll)
    (rest : Program Request (Except RelayError Nat)) : Stage → Stage → System → Prop where
  | begin :
      Advanced s i p rest .fresh (.begun s.outbox.transactions.length)
        { s with
          outbox := s.outbox.step .begin
          polls := s.polls.set i { p with tx := some s.outbox.transactions.length, rest } }
  | fetch {tx : TransactionId} (limit : Nat) :
      Advanced s i p rest (.begun tx) (.sending tx [] (s.outbox.available limit))
        { s with
          outbox := s.outbox.step (.fetch tx limit)
          polls := s.polls.set i { p with rest } }
  /-- The broker accepts the next row. -/
  | accept {tx : TransactionId} {accepted todo : List OutboxEntry} {entry : OutboxEntry}
      {targets : List String}
      (hroute : (s.brokers p.broker).route (p.forwarder.publishing entry).destination = .ok targets) :
      Advanced s i p rest (.sending tx accepted (entry :: todo))
        (.sending tx (accepted ++ [entry]) todo)
        { s.setBroker p.broker ((s.brokers p.broker).accept (p.forwarder.publishing entry) targets) with
          appended := s.appended ++ [⟨i, p.broker, entry, p.forwarder.publishing entry,
            (s.brokers p.broker).lastMessageId + 1⟩]
          polls := s.polls.set i { p with published := p.published ++ [entry], rest } }
  /-- The broker refuses the next row. -/
  | refuse {tx : TransactionId} {accepted todo : List OutboxEntry} {entry : OutboxEntry} (n : Nat) :
      Advanced s i p rest (.sending tx accepted (entry :: todo)) (.sending tx accepted [])
        { s.setBroker p.broker { s.brokers p.broker with failingPublishes := n } with
          polls := s.polls.set i { p with rest } }
  /-- A channel is opened or closed, or the pools are asked. -/
  | talk {tx : TransactionId} {accepted todo : List OutboxEntry} {m : Memory}
      (hm : Memory.Change (s.brokers p.broker) m) :
      Advanced s i p rest (.sending tx accepted todo) (.sending tx accepted todo)
        { s.setBroker p.broker m with polls := s.polls.set i { p with rest } }
  | mark {tx : TransactionId} {accepted todo : List OutboxEntry} :
      Advanced s i p rest (.sending tx accepted todo) (.marked tx accepted)
        { s with
          outbox := s.outbox.step (.mark tx (accepted.map (·.id)))
          polls := s.polls.set i { p with rest } }
  | commit {tx : TransactionId} {accepted : List OutboxEntry} (hf : s.outbox.failingCommits = 0) :
      Advanced s i p rest (.marked tx accepted) .ended
        { s with
          outbox := s.outbox.step (.commit tx)
          polls := s.polls.set i { p with rest } }
  | commitFailing {tx : TransactionId} {accepted : List OutboxEntry}
      (hf : 0 < s.outbox.failingCommits) :
      Advanced s i p rest (.marked tx accepted) .ended
        { s with
          outbox := s.outbox.step (.commit tx)
          polls := s.polls.set i { p with commitFailed := true, rest } }
  | rollback {tx : TransactionId} {todo : List OutboxEntry} :
      Advanced s i p rest (.sending tx [] todo) .ended
        { s with
          outbox := s.outbox.step (.rollback tx)
          polls := s.polls.set i { p with rest } }

variable {s : System} {i : Nat} {p : Poll} {stage : Stage}

theorem advance_of_ended (hp : s.polls[i]? = some p) (ht : p.Tracks s.outbox .ended)
    (pool : (r : Pooling.Request) → Requests.Answer r) : s.advance i pool = s := by
  have hf := ht.finished_iff.mpr rfl
  unfold Poll.finished at hf
  simp only [System.advance, hp]
  split at hf
  · rfl
  · cases hf

theorem System.setBroker_self (s : System) (broker : Nat) :
    s.setBroker broker (s.brokers broker) = s := by
  have : (fun b => if b = broker then s.brokers broker else s.brokers b) = s.brokers := by
    funext b
    split
    · rename_i h
      rw [h]
    · rfl
  rw [setBroker, this]

/-- The broker is asked to take a row: the log gets what it accepts. -/
theorem answer_publish (s : System) (i : Nat) (p : Poll)
    (pool : (r : Pooling.Request) → Requests.Answer r) (entry : OutboxEntry) (channel : ChannelId)
    (publishing : Publishing) (options : PublishOptions) :
    (∃ e n, s.answer i p pool (.forward entry (.session (.publish channel publishing options))) =
      (.error e, s.setBroker p.broker { s.brokers p.broker with failingPublishes := n })) ∨
    ∃ targets, (s.brokers p.broker).route publishing.destination = .ok targets ∧
      s.answer i p pool (.forward entry (.session (.publish channel publishing options))) =
        (.ok (), { s.setBroker p.broker ((s.brokers p.broker).accept publishing targets) with
          appended := s.appended ++ [⟨i, p.broker, entry, publishing,
            (s.brokers p.broker).lastMessageId + 1⟩] }) := by
  rcases Memory.publish_cases (s.brokers p.broker) channel publishing options with
    ⟨e, n, h⟩ | ⟨targets, hroute, h⟩
  · refine .inl ⟨e, n, ?_⟩
    simp only [System.answer, Memory.answer, h, List.drop_length, List.map_nil, List.append_nil]
    rfl
  · refine .inr ⟨targets, hroute, ?_⟩
    simp only [System.answer, Memory.answer, h, Memory.published_accept,
      Memory.lastMessageId_accept, List.drop_left]
    rfl

/-- Whatever else sending a row takes leaves the log alone. -/
theorem answer_aside (s : System) (i : Nat) (p : Poll)
    (pool : (r : Pooling.Request) → Requests.Answer r) (entry : OutboxEntry) {r : Pooling.Request}
    (h : r.isAside = true) :
    ∃ a m, Memory.Change (s.brokers p.broker) m ∧
      s.answer i p pool (.forward entry r) = (a, s.setBroker p.broker m) := by
  cases r with
  | session r =>
    simp only [Pooling.Request.isAside, Bool.and_eq_true, Bool.not_eq_true'] at h
    refine ⟨(Memory.answer r (s.brokers p.broker)).1, _,
      Memory.answer_change h.1 h.2 (s.brokers p.broker), ?_⟩
    simp only [System.answer, Memory.published_answer h.1, List.drop_length, List.map_nil,
      List.append_nil]
    rfl
  | _ => exact ⟨_, _, .still, by rw [System.setBroker_self]; rfl⟩

theorem hear_aside (p : Poll) (entry : OutboxEntry) {r : Pooling.Request} (h : r.isAside = true)
    (a : Requests.Answer r) : p.hear (.forward entry r) a = p := by
  cases r with
  | session r =>
    cases r with
    | publish => cases h
    | _ => rfl
  | _ => rfl

/-- A cycle at work is answered in one of these ways. -/
theorem advance_cases (hp : s.polls[i]? = some p) (ht : p.Tracks s.outbox stage)
    (hstage : stage ≠ .ended) (pool : (r : Pooling.Request) → Requests.Answer r) :
    ∃ rest stage', Advanced s i p rest stage stage' (s.advance i pool) ∧
      rest.Obeys (Moves p.forwarder) (fun _ stage => stage = .ended) stage' ∧ told rest = rest := by
  obtain ⟨hat, hobeys, htold⟩ := ht
  cases hr : p.rest with
  | done result =>
    rw [hr] at hobeys
    exact absurd hobeys hstage
  | ask r next =>
    rw [hr] at hobeys htold
    -- what is left of the cycle, once it has been answered in a way that the protocol knows
    have go : ∀ a stage', Moves p.forwarder stage r a stage' →
        (told (next a)).Obeys (Moves p.forwarder) (fun _ stage => stage = .ended) stage' ∧
          told (told (next a)) = told (next a) :=
      fun a stage' hm => ⟨obeys_told (hobeys.next hm), told_told _⟩
    obtain ⟨a, stage', hm⟩ := hobeys.allowed
    simp only [System.advance, hp, hr]
    cases hm with
    | begin =>
      exact ⟨_, _, .begin, go _ _ (.begin _)⟩
    | @fetch tx limit rows =>
      obtain ⟨-, -, -, hopen⟩ := hat
      have hserve := Outbox.serve_eq rfl _ (congrArg Prod.fst (Outbox.serve_fetch hopen limit))
      simp only [System.answer, hserve]
      exact ⟨_, _, .fetch limit, go _ _ (.fetch _)⟩
    | @publish tx accepted todo entry channel publishing options h =>
      subst h
      rcases answer_publish s i p pool entry channel (p.forwarder.publishing entry) options with
        ⟨e, n, hanswer⟩ | ⟨targets, hroute, hanswer⟩
      · simp only [hanswer]
        exact ⟨_, _, .refuse n, go _ _ (.publish rfl (.error e))⟩
      · simp only [hanswer]
        exact ⟨_, _, .accept hroute, go _ _ (.publish rfl (.ok ()))⟩
    | @aside tx accepted todo entry r h =>
      obtain ⟨a, m, hm, hanswer⟩ := answer_aside s i p pool entry h
      simp only [hanswer, hear_aside p entry h]
      exact ⟨_, _, .talk hm, go _ _ (.aside h a)⟩
    | @mark tx accepted todo ids h =>
      subst h
      obtain ⟨-, -, -, locked, hopen, -⟩ := hat
      have hserve := Outbox.serve_eq rfl s.outbox
        (congrArg Prod.fst (Outbox.serve_mark hopen (accepted.map (·.id))))
      simp only [System.answer, hserve]
      exact ⟨_, _, .mark, go _ _ (.mark rfl)⟩
    | commit =>
      obtain ⟨-, -, -, locked, hopen, -⟩ := hat
      rcases Nat.eq_zero_or_pos s.outbox.failingCommits with hf | hf
      · have hserve := Outbox.serve_eq rfl _ (congrArg Prod.fst (Outbox.serve_commit hopen hf))
        simp only [System.answer, hserve]
        exact ⟨_, _, .commit hf, go _ _ (.commit _)⟩
      · have hserve := Outbox.serve_eq rfl _ (congrArg Prod.fst (Outbox.serve_commit_failing hopen hf))
        simp only [System.answer, hserve]
        exact ⟨_, _, .commitFailing hf, go _ _ (.commit _)⟩
    | rollback h =>
      subst h
      obtain ⟨-, -, -, locked, hopen, -⟩ := hat
      have hserve := Outbox.serve_eq rfl _ (congrArg Prod.fst (Outbox.serve_rollback hopen))
      simp only [System.answer, hserve]
      exact ⟨_, _, .rollback, go _ _ (.rollback rfl)⟩
    | hook event => exact absurd htold (told_ne_hook _ event next)

end Courier.Pipeline
