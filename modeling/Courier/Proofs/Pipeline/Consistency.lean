import Courier.Proofs.Lists
import Courier.Proofs.Outbox.Isolation
import Courier.Proofs.Pipeline.Advance

/-!
# Every cycle stands where it should

`Consistent` is what ties a system together: the outbox is well formed, each cycle is at the stage that
its account and its transaction say (`Poll.Tracks`), and no two of the cycles and writers have the same
transaction. What one of them does therefore leaves the others where they are (`Tracks.step`), and
`Consistent.step` is the induction step over events.

The stage of a cycle is no part of the system, so the invariant has it beside the system, as `stages`.
-/

namespace Courier

/-- Transactions are never forgotten. -/
theorem Outbox.length_transactions_step (o : Outbox) (op : Operation) :
    o.transactions.length ≤ (o.step op).transactions.length := by
  have change : ∀ {o'}, Change o op o' → o.transactions.length ≤ o'.transactions.length := by
    intro o' hc
    cases hc with
    | begin => simp [Outbox.begin]
    | _ => simp [stage, lock, finish, setTransaction, failNextCommits]
  exact change (step_change o op)

namespace Pipeline

open Relay (Stage)

variable {o : Outbox} {op : Outbox.Operation} {p : Poll} {stage : Stage}

/-! ## What others do -/

theorem Holding.step (h : o.WellFormed) (hc : o.Careful) {tx : TransactionId}
    {t : OutboxTransaction} (ht : o.transaction? tx = some t) (hop : op.transaction? ≠ some tx)
    {rows : List OutboxEntry} (hold : Holding o t.locked rows) :
    Holding (o.step op) t.locked rows := by
  refine ⟨hold.nodup, fun row hrow => ?_⟩
  obtain ⟨hmem, hpub, hid⟩ := hold.unpublished row hrow
  exact ⟨Outbox.mem_rows_step h hc ht hop hmem hid, hpub, hid⟩

/-- A transaction that has ended stays so. -/
theorem transaction?_of_ended {tx : TransactionId} (h : o.transaction? tx = none)
    (hlt : tx < o.transactions.length) : (o.step op).transaction? tx = none := by
  cases hs : (o.step op).transaction? tx with
  | none => rfl
  | some t =>
    cases Outbox.became hs with
    | begun _ htx => exact absurd htx (Nat.ne_of_lt hlt)
    | same h' => rw [h] at h'; cases h'
    | staged h' => rw [h] at h'; cases h'
    | locked h' => rw [h] at h'; cases h'
    | marked h' => rw [h] at h'; cases h'

/-- An operation on another transaction leaves a cycle where it is. -/
theorem Poll.At.step (h : o.WellFormed) (hc : o.Careful)
    (hlt : ∀ tx, p.tx = some tx → tx < o.transactions.length)
    (hop : ∀ tx, p.tx = some tx → op.transaction? ≠ some tx) (hat : p.At o stage) :
    p.At (o.step op) stage := by
  cases stage with
  | fresh => exact hat
  | begun tx =>
    obtain ⟨htx, hpub, hf, hopen⟩ := hat
    exact ⟨htx, hpub, hf, Outbox.transaction?_step hopen (hop tx htx)⟩
  | sending tx accepted todo =>
    obtain ⟨htx, hpub, hf, locked, hopen, hold⟩ := hat
    exact ⟨htx, hpub, hf, locked, Outbox.transaction?_step hopen (hop tx htx),
      Holding.step h hc hopen (hop tx htx) hold⟩
  | marked tx accepted =>
    obtain ⟨htx, hpub, hf, locked, hopen, hold⟩ := hat
    exact ⟨htx, hpub, hf, locked, Outbox.transaction?_step hopen (hop tx htx),
      Holding.step h hc hopen (hop tx htx) hold⟩
  | ended => exact fun tx htx => transaction?_of_ended (hat tx htx) (hlt tx htx)

theorem Poll.Tracks.step (h : o.WellFormed) (hc : o.Careful)
    (hlt : ∀ tx, p.tx = some tx → tx < o.transactions.length)
    (hop : ∀ tx, p.tx = some tx → op.transaction? ≠ some tx) (ht : p.Tracks o stage) :
    p.Tracks (o.step op) stage :=
  ⟨ht.at_stage.step h hc hlt hop, ht.obeys, ht.told⟩

/-! ## Who has which transaction -/

/-- Of the first `count` transactions, none belongs to two of the cycles and writers. -/
structure Owned (polls : List Poll) (writers : List TransactionId) (count : Nat) : Prop where
  polls_lt : ∀ (i : Nat) (p : Poll) (tx : TransactionId), polls[i]? = some p → p.tx = some tx →
    tx < count ∧ tx ∉ writers
  distinct : ∀ (i j : Nat) (p q : Poll) (tx : TransactionId), polls[i]? = some p →
    polls[j]? = some q → p.tx = some tx → q.tx = some tx → i = j
  writers_lt : ∀ tx ∈ writers, tx < count

variable {polls : List Poll} {writers : List TransactionId} {count : Nat} {i : Nat} {p' : Poll}

theorem Owned.mono {count' : Nat} (h : Owned polls writers count) (hle : count ≤ count') :
    Owned polls writers count' where
  polls_lt i p tx hp htx :=
    ⟨Nat.lt_of_lt_of_le (h.polls_lt i p tx hp htx).1 hle, (h.polls_lt i p tx hp htx).2⟩
  distinct := h.distinct
  writers_lt tx hw := Nat.lt_of_lt_of_le (h.writers_lt tx hw) hle

/-- A cycle gets a transaction that nobody has. -/
theorem Owned.set (h : Owned polls writers count) {tx : TransactionId} (htx : p'.tx = some tx)
    (hlt : tx < count) (hw : tx ∉ writers)
    (hnew : ∀ (j : Nat) (q : Poll), j ≠ i → polls[j]? = some q → q.tx ≠ some tx) :
    Owned (polls.set i p') writers count := by
  refine ⟨fun j q tx' hq hqtx => ?_, fun j k q r tx' hq hr hqtx hrtx => ?_, h.writers_lt⟩
  · rcases getElem?_set_cases hq with ⟨rfl, rfl⟩ | ⟨-, hq⟩
    · obtain rfl : tx = tx' := Option.some.inj (htx.symm.trans hqtx)
      exact ⟨hlt, hw⟩
    · exact h.polls_lt j q tx' hq hqtx
  · rcases getElem?_set_cases hq with ⟨rfl, rfl⟩ | ⟨hj, hq'⟩ <;>
      rcases getElem?_set_cases hr with ⟨rfl, rfl⟩ | ⟨hk, hr'⟩
    · rfl
    · exact absurd (hrtx.trans (hqtx.symm.trans htx)) (hnew k r hk hr')
    · exact absurd (hqtx.trans (hrtx.symm.trans htx)) (hnew j q hj hq')
    · exact h.distinct j k q r tx' hq' hr' hqtx hrtx

/-- A cycle keeps its transaction. -/
theorem Owned.keep (h : Owned polls writers count) (hp : polls[i]? = some p) (htx : p'.tx = p.tx) :
    Owned (polls.set i p') writers count := by
  cases hptx : p.tx with
  | some tx =>
    obtain ⟨hlt, hw⟩ := h.polls_lt i p tx hp hptx
    exact h.set (htx.trans hptx) hlt hw fun j q hne hq hqtx => hne (h.distinct j i q p tx hq hp hqtx hptx)
  | none =>
    have hnone : ∀ (j : Nat) (q : Poll) (tx : TransactionId), (polls.set i p')[j]? = some q →
        q.tx = some tx → polls[j]? = some q := by
      intro j q tx hq hqtx
      rcases getElem?_set_cases hq with ⟨rfl, rfl⟩ | ⟨-, hq⟩
      · rw [htx, hptx] at hqtx
        cases hqtx
      · exact hq
    exact ⟨fun j q tx hq hqtx => h.polls_lt j q tx (hnone j q tx hq hqtx) hqtx,
      fun j k q r tx hq hr hqtx hrtx =>
        h.distinct j k q r tx (hnone j q tx hq hqtx) (hnone k r tx hr hrtx) hqtx hrtx,
      h.writers_lt⟩

/-- A cycle that starts has no transaction yet. -/
theorem Owned.append (h : Owned polls writers count) (htx : p'.tx = none) :
    Owned (polls ++ [p']) writers count := by
  have hold : ∀ (j : Nat) (q : Poll) (tx : TransactionId), (polls ++ [p'])[j]? = some q →
      q.tx = some tx → polls[j]? = some q := by
    intro j q tx hq hqtx
    rcases getElem?_append_cases hq with hq | ⟨-, rfl⟩
    · exact hq
    · rw [htx] at hqtx
      cases hqtx
  exact ⟨fun j q tx hq hqtx => h.polls_lt j q tx (hold j q tx hq hqtx) hqtx,
    fun j k q r tx hq hr hqtx hrtx =>
      h.distinct j k q r tx (hold j q tx hq hqtx) (hold k r tx hr hrtx) hqtx hrtx,
    h.writers_lt⟩

/-- A new transaction is a writer's. -/
theorem Owned.write (h : Owned polls writers count) :
    Owned polls (writers ++ [count]) (count + 1) := by
  refine ⟨fun i p tx hp htx => ?_, h.distinct, fun tx hw => ?_⟩
  · obtain ⟨hlt, hw⟩ := h.polls_lt i p tx hp htx
    refine ⟨Nat.lt_succ_of_lt hlt, fun hmem => ?_⟩
    rcases List.mem_append.mp hmem with hmem | hmem
    · exact hw hmem
    · exact absurd (List.mem_singleton.mp hmem) (Nat.ne_of_lt hlt)
  · rcases List.mem_append.mp hw with hw | hw
    · exact Nat.lt_succ_of_lt (h.writers_lt tx hw)
    · rw [List.mem_singleton.mp hw]
      exact Nat.lt_succ_self count

/-! ## The invariant -/

/-- Every cycle is at its stage, and has its transaction for itself. -/
structure Consistent (s : System) (stages : Nat → Stage) : Prop where
  wellFormed : s.outbox.WellFormed
  careful : s.outbox.Careful
  owned : Owned s.polls s.writers s.outbox.transactions.length
  tracks : ∀ (i : Nat) (p : Poll), s.polls[i]? = some p → p.Tracks s.outbox (stages i)
  unmarked : ∀ tx ∈ s.writers, ∀ t, s.outbox.transaction? tx = some t → t.marks = []

/-- The stages when a cycle is at another one. -/
def moved (stages : Nat → Stage) (i : Nat) (stage : Stage) : Nat → Stage :=
  fun j => if j = i then stage else stages j

variable {s : System} {stages : Nat → Stage}

theorem tracks_moved {o : Outbox} (hothers : ∀ (j : Nat) (q : Poll), j ≠ i → s.polls[j]? = some q →
    q.Tracks o (stages j)) (ht : p'.Tracks o stage) (j : Nat) (q : Poll)
    (hq : (s.polls.set i p')[j]? = some q) : q.Tracks o (moved stages i stage j) := by
  rcases getElem?_set_cases hq with ⟨rfl, rfl⟩ | ⟨hne, hq⟩
  · simpa only [moved, if_true] using ht
  · simpa only [moved, if_neg hne] using hothers j q hne hq

/-- A cycle goes on, and the outbox is left alone. -/
theorem Consistent.aside (h : Consistent s stages) (hp : s.polls[i]? = some p)
    (ht : p'.Tracks s.outbox stage) (htx : p'.tx = p.tx) (brokers : Nat → Memory)
    (appended : List Appended) :
    Consistent { s with brokers, appended, polls := s.polls.set i p' } (moved stages i stage) where
  wellFormed := h.wellFormed
  careful := h.careful
  owned := h.owned.keep hp htx
  tracks := tracks_moved (fun j q _ hq => h.tracks j q hq) ht
  unmarked := h.unmarked

/-- What an operation leaves of the transactions of writers that it is not about. -/
theorem Consistent.unmarked_step (h : Consistent s stages)
    (hop : ∀ tx ∈ s.writers, ∀ ids, op ≠ .mark tx ids) (tx : TransactionId) (hw : tx ∈ s.writers)
    (t : OutboxTransaction) (ht : (s.outbox.step op).transaction? tx = some t) : t.marks = [] := by
  cases Outbox.became ht with
  | begun => rfl
  | same h' => exact h.unmarked tx hw t h'
  | staged h' =>
    have hmarks := h.unmarked tx hw _ h'
    exact hmarks
  | locked h' =>
    have hmarks := h.unmarked tx hw _ h'
    exact hmarks
  | marked h' hmark => exact absurd hmark (hop tx hw _)

/-- A cycle does an operation on its own transaction. -/
theorem Consistent.own (h : Consistent s stages) (hp : s.polls[i]? = some p) {tx : TransactionId}
    (hptx : p.tx = some tx) (hop : op.transaction? = some tx) (htx : p'.tx = p.tx)
    (ht : p'.Tracks (s.outbox.step op) stage) (hcareful : (s.outbox.step op).Careful) :
    Consistent { s with outbox := s.outbox.step op, polls := s.polls.set i p' }
      (moved stages i stage) where
  wellFormed := h.wellFormed.step op
  careful := hcareful
  owned := (h.owned.keep hp htx).mono (s.outbox.length_transactions_step op)
  tracks := by
    refine tracks_moved (fun j q hne hq => ?_) ht
    refine (h.tracks j q hq).step h.wellFormed h.careful
      (fun tx' hqtx => (h.owned.polls_lt j q tx' hq hqtx).1) fun tx' hqtx e => ?_
    rw [hop] at e
    exact hne (h.owned.distinct j i q p tx' hq hp hqtx (e ▸ hptx))
  unmarked := by
    refine h.unmarked_step fun tx' hw ids e => ?_
    rw [e] at hop
    obtain rfl : tx' = tx := Option.some.inj hop
    exact (h.owned.polls_lt i p tx' hp hptx).2 hw

/-- A cycle ends its transaction. -/
theorem Consistent.finish (h : Consistent s stages) (hp : s.polls[i]? = some p) {tx : TransactionId}
    (hptx : p.tx = some tx) (hop : op.transaction? = some tx) (hmark : ∀ tx ids, op ≠ .mark tx ids)
    (htx : p'.tx = p.tx) (hnone : (s.outbox.step op).transaction? tx = none)
    (hobeys : p'.rest.Obeys (Moves p'.forwarder) (fun _ stage => stage = .ended) .ended)
    (htold : told p'.rest = p'.rest) :
    Consistent { s with outbox := s.outbox.step op, polls := s.polls.set i p' }
      (moved stages i .ended) := by
  refine h.own hp hptx hop htx ⟨fun tx' htx' => ?_, hobeys, htold⟩ (h.careful.step_of_ne hmark)
  obtain rfl := Option.some.inj (hptx.symm.trans (htx.symm.trans htx'))
  exact hnone

/-- An operation on no transaction of a cycle leaves every cycle where it is. -/
theorem Consistent.tracks_step (h : Consistent s stages)
    (hop : ∀ tx, op.transaction? = some tx → tx ∈ s.writers) (i : Nat) (p : Poll)
    (hp : s.polls[i]? = some p) : p.Tracks (s.outbox.step op) (stages i) :=
  (h.tracks i p hp).step h.wellFormed h.careful (fun tx htx => (h.owned.polls_lt i p tx hp htx).1)
    fun tx htx e => (h.owned.polls_lt i p tx hp htx).2 (hop tx e)

/-- A cycle gets its transaction. -/
theorem Consistent.begin (h : Consistent s stages) (htx : p'.tx = some s.outbox.transactions.length)
    (ht : p'.Tracks (s.outbox.step .begin) stage) :
    Consistent { s with outbox := s.outbox.step .begin, polls := s.polls.set i p' }
      (moved stages i stage) := by
  have hlen : (s.outbox.step .begin).transactions.length = s.outbox.transactions.length + 1 := by
    simp [Outbox.step, Outbox.begin]
  have howned := h.owned.mono (Nat.le_succ s.outbox.transactions.length)
  have hne : ∀ tx ids, Outbox.Operation.begin ≠ .mark tx ids := by simp
  refine ⟨h.wellFormed.step .begin, h.careful.step_of_ne hne, ?_, ?_,
    h.unmarked_step fun tx _ ids => hne tx ids⟩
  · simp only [hlen]
    refine howned.set htx (Nat.lt_succ_self _) (fun hw => ?_) fun j q _ hq hqtx => ?_
    · exact Nat.lt_irrefl _ (h.owned.writers_lt _ hw)
    · exact Nat.lt_irrefl _ (h.owned.polls_lt j q _ hq hqtx).1
  · have hnone : ∀ tx, Outbox.Operation.begin.transaction? = some tx → tx ∈ s.writers :=
      fun tx e => by cases e
    exact tracks_moved (fun j q _ hq => h.tracks_step hnone j q hq) ht

/-! ## Events -/

theorem Holding.mono {o : Outbox} {locked : List Int} {rows rows' : List OutboxEntry}
    (h : Holding o locked rows) (hsub : rows'.Sublist rows) : Holding o locked rows' :=
  ⟨h.nodup.sublist (hsub.map _), fun row hrow => h.unpublished row (hsub.subset hrow)⟩

theorem Holding.of_rows {o o' : Outbox} {locked : List Int} {rows : List OutboxEntry}
    (h : Holding o locked rows) (hrows : o'.rows = o.rows) : Holding o' locked rows :=
  ⟨h.nodup, fun row hrow => hrows ▸ h.unpublished row hrow⟩

/-- The rows that a fetch finds. -/
theorem holding_available {o : Outbox} (h : o.WellFormed) (limit : Nat) :
    Holding o ((o.available limit).map (·.id)) (o.available limit) := by
  refine ⟨(Outbox.ids_available h.ascending limit).1, fun row hrow => ?_⟩
  have hu := Outbox.unlocked_of_available hrow
  exact ⟨hu.committed, hu.unpublished, List.mem_map_of_mem hrow⟩

/-- A cycle that is answered is at the next stage. -/
theorem Consistent.advanced (h : Consistent s stages) (hp : s.polls[i]? = some p)
    {rest : Program Request (Except RelayError Nat)} {stage stage' : Stage} {s' : System}
    (hat : p.At s.outbox stage) (ha : Advanced s i p rest stage stage' s')
    (hobeys : rest.Obeys (Moves p.forwarder) (fun _ stage => stage = .ended) stage')
    (htold : told rest = rest) : Consistent s' (moved stages i stage') := by
  cases ha with
  | begin =>
    obtain ⟨-, hpub, hfailed⟩ := hat
    exact h.begin rfl ⟨⟨rfl, hpub, hfailed, s.outbox.transaction?_begin⟩, hobeys, htold⟩
  | @fetch tx limit =>
    obtain ⟨htx, hpub, hfailed, hopen⟩ := hat
    refine h.own hp htx rfl rfl ⟨⟨htx, hpub, hfailed, _, Outbox.transaction?_fetch hopen limit, ?_⟩,
      hobeys, htold⟩ (h.careful.step_of_ne (by simp))
    exact (holding_available h.wellFormed limit).of_rows (Outbox.rows_step (by simp))
  | @accept tx accepted todo entry targets hroute =>
    obtain ⟨htx, hpub, hfailed, locked, hopen, hold⟩ := hat
    have hold' : Holding s.outbox locked (accepted ++ [entry] ++ todo) := by
      rwa [List.append_assoc, List.singleton_append]
    have ht : Poll.Tracks s.outbox { p with published := p.published ++ [entry], rest }
        (.sending tx (accepted ++ [entry]) todo) :=
      ⟨⟨htx, by rw [← hpub], hfailed, locked, hopen, hold'⟩, hobeys, htold⟩
    exact h.aside hp ht rfl _ _
  | @refuse tx accepted todo entry n =>
    obtain ⟨htx, hpub, hfailed, locked, hopen, hold⟩ := hat
    have hold' : Holding s.outbox locked (accepted ++ []) :=
      hold.mono ((List.nil_sublist _).append_left _)
    have ht : Poll.Tracks s.outbox { p with rest } (.sending tx accepted []) :=
      ⟨⟨htx, hpub, hfailed, locked, hopen, hold'⟩, hobeys, htold⟩
    exact h.aside hp ht rfl _ _
  | @talk tx accepted todo m hm =>
    have ht : Poll.Tracks s.outbox { p with rest } (.sending tx accepted todo) :=
      ⟨hat, hobeys, htold⟩
    exact h.aside hp ht rfl _ _
  | mark =>
    obtain ⟨htx, hpub, hfailed, locked, hopen, hold⟩ := hat
    refine h.own hp htx rfl rfl ⟨⟨htx, hpub, hfailed, locked, Outbox.transaction?_mark hopen _, ?_⟩,
      hobeys, htold⟩ ?_
    · exact (hold.mono (List.sublist_append_left _ _)).of_rows (Outbox.rows_step (by simp))
    · refine h.careful.step fun tx' ids t e ht id hid => ?_
      cases e
      rw [hopen] at ht
      cases ht
      obtain ⟨row, hrow, rfl⟩ := List.mem_map.mp hid
      exact (hold.unpublished row (List.mem_append_left _ hrow)).2.2
  | commit hf =>
    obtain ⟨htx, -, -, locked, hopen, -⟩ := hat
    exact h.finish hp htx rfl (by simp) rfl (Outbox.transaction?_commit hopen) hobeys htold
  | commitFailing hf =>
    obtain ⟨htx, -, -, locked, hopen, -⟩ := hat
    exact h.finish hp htx rfl (by simp) rfl (Outbox.transaction?_commit hopen) hobeys htold
  | rollback =>
    obtain ⟨htx, -, -, locked, hopen, -⟩ := hat
    exact h.finish hp htx rfl (by simp) rfl (Outbox.transaction?_rollback hopen) hobeys htold

/-- A writer begins. -/
theorem Consistent.write_begin (h : Consistent s stages) : Consistent (s.write .begin) stages := by
  have hlen : (s.outbox.step .begin).transactions.length = s.outbox.transactions.length + 1 := by
    simp [Outbox.step, Outbox.begin]
  have hnone : ∀ tx, Outbox.Operation.begin.transaction? = some tx → tx ∈ s.writers :=
    fun tx e => by cases e
  have hmark : ∀ tx ids, Outbox.Operation.begin ≠ .mark tx ids := by simp
  refine ⟨h.wellFormed.step .begin, h.careful.step_of_ne hmark, ?_, h.tracks_step hnone,
    fun tx hw t ht => ?_⟩
  · show Owned s.polls (s.writers ++ [s.outbox.transactions.length])
      (s.outbox.step .begin).transactions.length
    rw [hlen]
    exact h.owned.write
  · rcases List.mem_append.mp hw with hw | hw
    · exact h.unmarked_step (fun tx _ => hmark tx) tx hw t ht
    · rw [List.mem_singleton.mp hw] at ht
      obtain rfl := Option.some.inj (s.outbox.transaction?_begin.symm.trans ht)
      rfl

/-- A writer does something else than begin. -/
theorem Consistent.write_step (h : Consistent s stages)
    (hop : ∀ tx, op.transaction? = some tx → tx ∈ s.writers) (hmark : ∀ tx ids, op ≠ .mark tx ids) :
    Consistent { s with outbox := s.outbox.step op } stages where
  wellFormed := h.wellFormed.step op
  careful := h.careful.step_of_ne hmark
  owned := h.owned.mono (s.outbox.length_transactions_step op)
  tracks := h.tracks_step hop
  unmarked := h.unmarked_step fun tx _ ids => hmark tx ids

theorem Consistent.write (h : Consistent s stages) (op : Outbox.Operation) :
    Consistent (s.write op) stages := by
  cases op with
  | begin => exact h.write_begin
  | failNextCommits count => exact h.write_step (fun tx e => by cases e) (by simp)
  | mark tx ids => exact h
  | _ =>
    unfold System.write
    split
    · rename_i hmay
      refine h.write_step (fun tx e => ?_) (by simp)
      simp only [System.mayWrite, e, Option.any_some, List.contains_iff_mem] at hmay
      exact hmay
    · exact h

/-- The stages when one more cycle starts. -/
theorem Consistent.start (h : Consistent s stages) (forwarder : Forwarder) (broker : Nat)
    (cancel : TokenId) (batchSize : Nat) :
    Consistent (s.step (.poll forwarder broker cancel batchSize))
      (moved stages s.polls.length .fresh) := by
  refine { h with owned := h.owned.append rfl, tracks := fun i p hp => ?_ }
  rcases getElem?_append_cases hp with hp | ⟨rfl, rfl⟩
  · have hlt := (List.getElem?_eq_some_iff.mp hp).1
    simp only [moved, if_neg (Nat.ne_of_lt hlt)]
    exact h.tracks i p hp
  · simp only [moved, if_true]
    exact ⟨⟨rfl, rfl, rfl⟩, obeys_told (cycle_obeys forwarder cancel batchSize), told_told _⟩

/-- A cycle is answered, or there is none to be answered. -/
theorem Consistent.advance_cases (h : Consistent s stages) (i : Nat)
    (pool : (r : Pooling.Request) → Requests.Answer r) :
    s.advance i pool = s ∨ ∃ p rest stage', s.polls[i]? = some p ∧
      Advanced s i p rest (stages i) stage' (s.advance i pool) ∧
      rest.Obeys (Moves p.forwarder) (fun _ stage => stage = .ended) stage' ∧ told rest = rest := by
  cases hp : s.polls[i]? with
  | none => exact .inl (by rw [System.advance, hp])
  | some p =>
    have ht := h.tracks i p hp
    by_cases hend : stages i = .ended
    · rw [hend] at ht
      exact .inl (advance_of_ended hp ht pool)
    · obtain ⟨rest, stage', ha, hrest⟩ := Pipeline.advance_cases hp ht hend pool
      exact .inr ⟨p, rest, stage', rfl, ha, hrest⟩

theorem Consistent.advance (h : Consistent s stages) (i : Nat)
    (pool : (r : Pooling.Request) → Requests.Answer r) :
    ∃ stages, Consistent (s.advance i pool) stages := by
  rcases h.advance_cases i pool with hs | ⟨p, rest, stage', hp, ha, hobeys, htold⟩
  · exact ⟨stages, hs.symm ▸ h⟩
  · exact ⟨_, h.advanced hp (h.tracks i p hp).at_stage ha hobeys htold⟩

/-- Whatever happens. -/
theorem Consistent.step (h : Consistent s stages) (e : Event) :
    ∃ stages, Consistent (s.step e) stages := by
  cases e with
  | write op => exact ⟨stages, h.write op⟩
  | poll forwarder broker cancel batchSize => exact ⟨_, h.start forwarder broker cancel batchSize⟩
  | advance i pool => exact h.advance i pool
  | broker broker activity => exact ⟨stages, { h with }⟩

/-- What every event keeps, given that the system is consistent, is kept. -/
theorem Consistent.after (h : Consistent s stages) (kept : System → Prop) (hs : kept s)
    (hstep : ∀ (s : System) (stages : Nat → Stage) (e : Event), Consistent s stages → kept s →
      kept (s.step e)) (events : List Event) :
    ∃ stages, Consistent (s.after events) stages ∧ kept (s.after events) := by
  induction events generalizing s stages with
  | nil => exact ⟨stages, h, hs⟩
  | cons e events ih =>
    obtain ⟨stages', h'⟩ := h.step e
    exact ih h' (hstep s stages e h hs)

/-- Nothing has happened yet. -/
theorem consistent_start (brokers : Nat → Memory) : Consistent { brokers } fun _ => .fresh where
  wellFormed := Outbox.wellFormed_empty
  careful := Outbox.careful_empty
  owned := ⟨fun i p tx h => by simp at h, fun i j p q tx h => by simp at h, fun tx h => by simp at h⟩
  tracks i p h := by simp at h
  unmarked tx h := by simp at h

end Pipeline

end Courier
