import Courier.Proofs.Outbox.SkipLocked
import Courier.Proofs.Pipeline.Consistency

/-!
# What is in the brokers' logs

`Logged` ties the entries that cycles have added to the logs to what they are entries of: a committed
row, as the cycle's forwarder makes a message of it, in the log of the cycle's broker. No event undoes
that (`Logged.step`), for rows, cycles and logs only get more (`Grown`).
-/

namespace Courier

namespace Pipeline

open Relay (Stage)

variable {s s' : System} {stages : Nat → Stage} {i : Nat} {p p' : Poll} {stage stage' : Stage}
  {rest : Program Request (Except RelayError Nat)}

/-! ## What no event undoes -/

structure Grown (s s' : System) : Prop where
  polls : ∀ (i : Nat) (p : Poll), s.polls[i]? = some p →
    ∃ p', s'.polls[i]? = some p' ∧ p'.forwarder = p.forwarder ∧ p'.broker = p.broker
  rows : Outbox.RowsKept s.outbox s'.outbox
  logs : ∀ b, (s.brokers b).published.Sublist (s'.brokers b).published

/-- A cycle goes on. -/
theorem Grown.of_set (hp : s.polls[i]? = some p) (hf : p'.forwarder = p.forwarder)
    (hb : p'.broker = p.broker) {o' : Outbox} (hrows : Outbox.RowsKept s.outbox o')
    {brokers : Nat → Memory}
    (hlogs : ∀ b, (s.brokers b).published.Sublist (brokers b).published)
    {appended : List Appended} :
    Grown s { s with outbox := o', brokers, appended, polls := s.polls.set i p' } := by
  refine ⟨fun j q hq => ?_, hrows, hlogs⟩
  by_cases hij : i = j
  · subst hij
    obtain rfl : p = q := Option.some.inj (hp.symm.trans hq)
    exact ⟨p', List.getElem?_set_self (List.getElem?_eq_some_iff.mp hp).1, hf, hb⟩
  · exact ⟨q, by rw [List.getElem?_set_ne hij, hq], rfl, rfl⟩

theorem logs_setBroker {broker : Nat} {m : Memory}
    (hm : (s.brokers broker).published.Sublist m.published) (b : Nat) :
    (s.brokers b).published.Sublist ((s.setBroker broker m).brokers b).published := by
  simp only [System.setBroker]
  split
  · rename_i hb
    rw [hb]
    exact hm
  · exact .refl _

/-! ## The entries -/

/-- The cycles' entries are messages of committed rows, and are in the logs. -/
structure Logged (s : System) : Prop where
  sent : ∀ a ∈ s.appended, ∃ p, s.polls[a.poll]? = some p ∧ a.broker = p.broker ∧
    a.publishing = p.forwarder.publishing a.entry
  committed : ∀ a ∈ s.appended,
    ∃ row ∈ s.outbox.rows, row = a.entry ∨ row = { a.entry with published := true }
  logs : ∀ b, ((s.appended.filter (·.broker == b)).map (·.publishing)).Sublist
    (s.brokers b).published

theorem Logged.grown (l : Logged s) (g : Grown s s') (ha : s'.appended = s.appended) : Logged s' where
  sent a hmem := by
    obtain ⟨p, hp, hb, hpub⟩ := l.sent a (ha ▸ hmem)
    obtain ⟨p', hp', hf', hb'⟩ := g.polls _ p hp
    exact ⟨p', hp', hb' ▸ hb, hf' ▸ hpub⟩
  committed a hmem := by
    obtain ⟨row, hrow, e⟩ := l.committed a (ha ▸ hmem)
    obtain ⟨row', hrow', e'⟩ := g.rows row hrow
    refine ⟨row', hrow', ?_⟩
    rcases e with rfl | rfl
    · exact e'
    · exact .inr (e'.elim id id)
  logs b := ha ▸ (l.logs b).trans (g.logs b)

/-- The broker accepts a row that the cycle holds. -/
theorem Logged.accept (l : Logged s) (hp : s.polls[i]? = some p) {a : Appended}
    (ha : a.poll = i ∧ a.broker = p.broker ∧ a.publishing = p.forwarder.publishing a.entry)
    (hentry : a.entry ∈ s.outbox.rows) {targets : List String} (hf : p'.forwarder = p.forwarder)
    (hb : p'.broker = p.broker) :
    Logged
      { s.setBroker p.broker ((s.brokers p.broker).accept a.publishing targets) with
        appended := s.appended ++ [a]
        polls := s.polls.set i p' } := by
  obtain ⟨hpoll, hbroker, hpublishing⟩ := ha
  have hpublished := Memory.published_accept (s.brokers p.broker) a.publishing targets
  have hlogs := logs_setBroker (s := s) (hpublished ▸ List.sublist_append_left _ _)
  have l' := l.grown (.of_set hp hf hb (.of_eq rfl) hlogs) rfl
  refine ⟨fun a' hmem => ?_, fun a' hmem => ?_, fun b => ?_⟩
  · rcases List.mem_append.mp hmem with hmem | hmem
    · exact l'.sent a' hmem
    · rw [List.mem_singleton.mp hmem, hpoll, hbroker, hpublishing]
      exact ⟨p', List.getElem?_set_self (List.getElem?_eq_some_iff.mp hp).1, hb.symm, by rw [hf]⟩
  · rcases List.mem_append.mp hmem with hmem | hmem
    · exact l'.committed a' hmem
    · rw [List.mem_singleton.mp hmem]
      exact ⟨a.entry, hentry, .inl rfl⟩
  · rw [List.filter_append, List.map_append]
    by_cases hpb : p.broker = b
    · subst hpb
      have hsingle : [a].filter (·.broker == p.broker) = [a] := by simp [hbroker]
      simp only [hsingle, System.setBroker, if_true, hpublished]
      exact (l.logs p.broker).append (.refl _)
    · have hnone : [a].filter (·.broker == b) = [] := by simp [hbroker, hpb]
      simp only [hnone, List.map_nil, List.append_nil]
      exact l'.logs b

theorem Logged.advanced (l : Logged s) (h : Consistent s stages) (hp : s.polls[i]? = some p)
    (hat : p.At s.outbox stage) (ha : Advanced s i p rest stage stage' s') : Logged s' := by
  have hrows := h.wellFormed.rowsKept_step
  have hlogs : ∀ b, (s.brokers b).published.Sublist (s.brokers b).published := fun b => .refl _
  cases ha with
  | @accept tx accepted todo entry targets hroute =>
    obtain ⟨-, -, -, locked, -, hold⟩ := hat
    have hentry := (hold.unpublished entry (by simp)).1
    exact l.accept (a := ⟨_, _, entry, _, _⟩) hp ⟨rfl, rfl, rfl⟩ hentry rfl rfl
  | refuse n =>
    refine l.grown (.of_set hp ?_ ?_ (.of_eq rfl) (logs_setBroker ?_)) rfl
    · rfl
    · rfl
    · exact .refl _
  | talk hm =>
    refine l.grown (.of_set hp ?_ ?_ (.of_eq rfl) (logs_setBroker (hm.published ▸ .refl _))) rfl
    · rfl
    · rfl
  | _ =>
    refine l.grown (.of_set hp ?_ ?_ (hrows _) hlogs) rfl
    · rfl
    · rfl

theorem Logged.step (l : Logged s) (h : Consistent s stages) (e : Event) : Logged (s.step e) := by
  cases e with
  | write op =>
    simp only [System.step, System.write]
    split
    · exact l.grown ⟨fun j q hq => ⟨q, hq, rfl, rfl⟩, h.wellFormed.rowsKept_step op, fun b => .refl _⟩
        rfl
    · exact l
  | poll forwarder broker cancel batchSize =>
    refine l.grown ⟨fun j q hq => ⟨q, ?_, rfl, rfl⟩, .of_eq rfl, fun b => .refl _⟩ rfl
    rw [System.step, List.getElem?_append_left (List.getElem?_eq_some_iff.mp hq).1, hq]
  | advance i pool =>
    rcases h.advance_cases i pool with hs | ⟨p, rest, stage', hp, ha, -⟩
    · rwa [System.step, hs]
    · exact l.advanced h hp (h.tracks i p hp).at_stage ha
  | broker broker activity =>
    exact l.grown ⟨fun j q hq => ⟨q, hq, rfl, rfl⟩, .of_eq rfl,
      logs_setBroker (Memory.published_act _ activity).sublist⟩ rfl

theorem logged_start (brokers : Nat → Memory) : Logged { brokers } where
  sent a ha := by cases ha
  committed a ha := by cases ha
  logs b := List.nil_sublist _

end Pipeline

end Courier
