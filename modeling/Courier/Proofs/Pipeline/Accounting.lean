import Courier.Proofs.Pipeline.Logs

/-!
# What the brokers have got of each row

Rows may be published more than once: what a cycle has published is sent again if the cycle's commit
fails. `accounting` says exactly how often. In every reachable state the cycles have added as many
entries to the brokers' logs for a row as there are reasons for one: that the row is published, that a
cycle has published it and failed to commit, and that a cycle has published it and is still at work.

The last two are what cycles owe (`Poll.owes`), so the count is kept by three kinds of steps: a row is
accepted and the cycle owes it; a commit pays what the cycle owed by turning the rows published; and a
commit that fails leaves the debt for good.
-/

namespace Courier.Pipeline

open Relay (Stage)

/-- Does the log have an entry for this row from the cycle that no published row stands for? -/
def Poll.owes (p : Poll) (id : Int) : Bool :=
  p.hasPublished id && (!p.finished || p.commitFailed)

theorem countP_owes (polls : List Poll) (id : Int) :
    polls.countP (·.owes id) =
      polls.countP (fun p => p.finished && p.commitFailed && p.hasPublished id) +
        polls.countP (fun p => !p.finished && p.hasPublished id) := by
  induction polls with
  | nil => rfl
  | cons p polls ih =>
    have hone : (if p.owes id then 1 else 0) =
        (if p.finished && p.commitFailed && p.hasPublished id then 1 else 0) +
          (if !p.finished && p.hasPublished id then 1 else 0) := by
      unfold Poll.owes
      cases p.finished <;> cases p.commitFailed <;> cases p.hasPublished id <;> rfl
    rw [List.countP_cons, List.countP_cons, List.countP_cons, ih]
    omega

variable {s s' : System} {stages stages' : Nat → Stage} {i : Nat} {p : Poll} {o : Outbox}
  {stage stage' : Stage} {rest : Program Request (Except RelayError Nat)}

/-! ## Rows that a cycle holds -/

/-- A row that a cycle holds is not published. -/
theorem Holding.isPublished_eq_false {locked : List Int} {rows : List OutboxEntry}
    (hold : Holding o locked rows) (h : o.WellFormed) {row : OutboxEntry} (hrow : row ∈ rows) :
    o.isPublished row.id = false := by
  obtain ⟨hmem, hpub, -⟩ := hold.unpublished row hrow
  refine Bool.eq_false_iff.mpr fun hp => ?_
  obtain ⟨other, hother, hid, hpub'⟩ := Outbox.isPublished_iff.mp hp
  rw [h.ascending.eq_of_id_eq hother hmem hid, hpub] at hpub'
  cases hpub'

/-- The commit of a cycle publishes what the broker has accepted from it. -/
theorem Holding.isPublished_commit {tx : TransactionId} {accepted : List OutboxEntry}
    {locked : List Int} (hold : Holding o locked accepted) (h : o.WellFormed) (hc : o.Careful)
    (hopen : o.transaction? tx = some { marks := accepted.map (·.id), locked })
    (hf : o.failingCommits = 0) (id : Int) :
    (o.step (.commit tx)).isPublished id = (o.isPublished id || accepted.any (·.id == id)) := by
  refine Bool.eq_iff_iff.mpr ((Outbox.isPublished_commit h hc hopen hf).trans ?_)
  simp only [Bool.or_eq_true, List.any_eq_true, beq_iff_eq, List.mem_map, List.append_nil]
  refine or_congr_right ⟨fun ⟨hmark, _⟩ => hmark, fun ⟨row, hrow, hid⟩ => ?_⟩
  exact ⟨⟨row, hrow, hid⟩, row, (hold.unpublished row hrow).1, hid⟩

/-! ## The count -/

/-- The logs have an entry for each published row and for each one that is owed. -/
def Accounted (s : System) : Prop :=
  ∀ id, s.appended.countP (·.entry.id == id) =
    (s.outbox.isPublished id).toNat + s.polls.countP (·.owes id)

/-- A step that changes neither the logs nor what is published or owed. -/
theorem Accounted.of_eq (acc : Accounted s) (hp : s.polls[i]? = some p) {p' : Poll}
    {o' : Outbox} {brokers : Nat → Memory}
    (ho : ∀ id, o'.isPublished id = s.outbox.isPublished id) (howes : ∀ id, p'.owes id = p.owes id) :
    Accounted { s with outbox := o', brokers, polls := s.polls.set i p' } := by
  intro id
  have hset := countP_set_add (·.owes id) p' hp
  have hacc := acc id
  simp only [howes] at hset
  simp only [ho]
  omega

/-- What a cycle owes while it is at work is what it has published. -/
theorem Poll.Tracks.owes_eq (ht : p.Tracks o stage) (hstage : stage ≠ .ended) (id : Int) :
    p.owes id = p.hasPublished id := by
  have hf : p.finished = false := Bool.eq_false_iff.mpr fun hf => hstage (ht.finished_iff.mp hf)
  rw [owes, hf, Bool.not_false, Bool.true_or, Bool.and_true]

/-- A cycle that has ended owes what it has published if its commit failed. -/
theorem Poll.Tracks.owes_ended (ht : p.Tracks o .ended) (id : Int) :
    p.owes id = (p.hasPublished id && p.commitFailed) := by
  rw [owes, ht.finished_iff.mpr rfl, Bool.not_true, Bool.false_or]

/-- A cycle goes on without publishing or committing. -/
theorem Accounted.quiet (acc : Accounted s) (hp : s.polls[i]? = some p) {p' : Poll} {o' : Outbox}
    {brokers : Nat → Memory} (ht : p.Tracks s.outbox stage) (ht' : p'.Tracks o' stage')
    (hstage : stage ≠ .ended) (hstage' : stage' ≠ .ended) (hpub : p'.published = p.published)
    (ho : ∀ id, o'.isPublished id = s.outbox.isPublished id) :
    Accounted { s with outbox := o', brokers, polls := s.polls.set i p' } := by
  refine acc.of_eq hp ho fun id => ?_
  rw [ht.owes_eq hstage, ht'.owes_eq hstage', Poll.hasPublished, Poll.hasPublished, hpub]

/-- The broker accepts a row: there is one more entry, and the cycle owes it. -/
theorem Accounted.accept (acc : Accounted s) (hp : s.polls[i]? = some p) {p' : Poll}
    {tx : TransactionId} {accepted todo : List OutboxEntry} {entry : OutboxEntry}
    (ht : p.Tracks s.outbox (.sending tx accepted (entry :: todo)))
    (ht' : p'.Tracks s.outbox (.sending tx (accepted ++ [entry]) todo)) {brokers : Nat → Memory}
    {a : Appended} (ha : a.entry = entry) :
    Accounted { s with
      brokers
      appended := s.appended ++ [a]
      polls := s.polls.set i p' } := by
  obtain ⟨-, hpub, -, locked, -, hold⟩ := ht.at_stage
  obtain ⟨-, hpub', -⟩ := ht'.at_stage
  intro id
  have hset := countP_set_add (·.owes id) p' hp
  have hacc := acc id
  have hone : (p'.owes id).toNat = (p.owes id).toNat + [a].countP (·.entry.id == id) := by
    rw [ht.owes_eq (by simp), ht'.owes_eq (by simp), Poll.hasPublished, Poll.hasPublished, hpub, hpub',
      List.any_append, List.countP_singleton, ha]
    by_cases hid : entry.id = id
    · -- the row has not been sent before, since the cycle has fetched it once
      have hfresh : accepted.any (·.id == id) = false := by
        refine List.any_eq_false.mpr fun row hrow => ?_
        have hdisjoint := (List.nodup_append.mp (List.map_append ▸ hold.nodup)).2.2
        have hne := hdisjoint row.id (List.mem_map_of_mem hrow) entry.id (by simp)
        simpa [← hid] using hne
      simp [hfresh, hid]
    · simp [beq_eq_false_iff_ne.mpr hid]
  simp only [List.countP_append]
  omega

/-- A commit: what the cycle owed is published. -/
theorem Accounted.commit (acc : Accounted s) (h : Consistent s stages) (hp : s.polls[i]? = some p)
    {p' : Poll} {tx : TransactionId} {accepted : List OutboxEntry}
    (ht : p.Tracks s.outbox (.marked tx accepted)) (hf : s.outbox.failingCommits = 0)
    (ht' : p'.Tracks (s.outbox.step (.commit tx)) .ended) (hfailed : p'.commitFailed = false) :
    Accounted { s with outbox := s.outbox.step (.commit tx), polls := s.polls.set i p' } := by
  obtain ⟨-, hpub, -, locked, hopen, hold⟩ := ht.at_stage
  intro id
  have hset := countP_set_add (·.owes id) p' hp
  have hacc := acc id
  have hone : (p.owes id).toNat + (s.outbox.isPublished id).toNat =
      ((s.outbox.step (.commit tx)).isPublished id).toNat := by
    rw [ht.owes_eq (by simp), Poll.hasPublished, hpub,
      hold.isPublished_commit h.wellFormed h.careful hopen hf]
    cases hany : accepted.any (·.id == id) with
    | false => simp
    | true =>
      obtain ⟨row, hrow, hid⟩ := List.any_eq_true.mp hany
      rw [← beq_iff_eq.mp hid, hold.isPublished_eq_false h.wellFormed hrow]
      rfl
  have hzero : (p'.owes id).toNat = 0 := by rw [ht'.owes_ended, hfailed, Bool.and_false]; rfl
  simp only at hset ⊢
  omega

theorem Accounted.advanced (acc : Accounted s) (h : Consistent s stages) (hp : s.polls[i]? = some p)
    (ht : p.Tracks s.outbox stage) (ha : Advanced s i p rest stage stage' s')
    (hobeys : rest.Obeys (Moves p.forwarder) (fun _ stage => stage = .ended) stage')
    (htold : told rest = rest) : Accounted s' := by
  have hlt : i < s.polls.length := (List.getElem?_eq_some_iff.mp hp).1
  -- the cycle is tracked at its next stage, so it is known what it owes there
  have h' := h.advanced hp ht.at_stage ha hobeys htold
  have hnext : ∀ p', s'.polls[i]? = some p' → p'.Tracks s'.outbox stage' := by
    intro p' hp'
    have := h'.tracks i p' hp'
    rwa [moved, if_pos rfl] at this
  have hset : ∀ p' : Poll, (s.polls.set i p')[i]? = some p' := fun p' => by
    rw [List.getElem?_set_self hlt]
  cases ha with
  | begin =>
    exact acc.quiet hp ht (hnext _ (hset _)) (by simp) (by simp) rfl
      (Outbox.isPublished_step h.wellFormed h.careful (by simp))
  | fetch limit =>
    exact acc.quiet hp ht (hnext _ (hset _)) (by simp) (by simp) rfl
      (Outbox.isPublished_step h.wellFormed h.careful (by simp))
  | accept hroute => exact acc.accept hp ht (hnext _ (hset _)) rfl
  | refuse n => exact acc.quiet hp ht (hnext _ (hset _)) (by simp) (by simp) rfl fun _ => rfl
  | talk hm => exact acc.quiet hp ht (hnext _ (hset _)) (by simp) (by simp) rfl fun _ => rfl
  | mark =>
    exact acc.quiet hp ht (hnext _ (hset _)) (by simp) (by simp) rfl
      (Outbox.isPublished_step h.wellFormed h.careful (by simp))
  | commit hf =>
    obtain ⟨-, -, hfailed, -⟩ := ht.at_stage
    exact acc.commit h hp ht hf (hnext _ (hset _)) hfailed
  | commitFailing hf =>
    refine acc.of_eq hp (Outbox.isPublished_commit_failing hf _) fun id => ?_
    rw [ht.owes_eq (by simp), (hnext _ (hset _)).owes_ended, Bool.and_true]
    rfl
  | rollback =>
    obtain ⟨-, hpub, hfailed, -⟩ := ht.at_stage
    refine acc.of_eq hp (Outbox.isPublished_step h.wellFormed h.careful (by simp)) fun id => ?_
    rw [ht.owes_eq (by simp), (hnext _ (hset _)).owes_ended, hfailed, Bool.and_false,
      Poll.hasPublished, hpub, List.any_nil]

/-! ## Events -/

/-- Writers publish nothing, for they mark nothing. -/
theorem Accounted.write (acc : Accounted s) (h : Consistent s stages) (op : Outbox.Operation) :
    Accounted (s.write op) := by
  unfold System.write
  split
  · rename_i hmay
    have hmarks : ∀ tx t, op = .commit tx → s.outbox.transaction? tx = some t → t.marks = [] := by
      rintro tx t rfl ht
      simp only [System.mayWrite, Outbox.Operation.transaction?, Option.any_some,
        List.contains_iff_mem] at hmay
      exact h.unmarked tx hmay t ht
    intro id
    have hsame := Outbox.isPublished_step h.wellFormed h.careful hmarks id
    simp only [hsame]
    exact acc id
  · exact acc

/-- A cycle that starts owes nothing. -/
theorem Accounted.start (acc : Accounted s) (forwarder : Forwarder) (broker : Nat) (cancel : TokenId)
    (batchSize : Nat) : Accounted (s.step (.poll forwarder broker cancel batchSize)) := by
  intro id
  have hnone : ∀ p : Poll, p.published = [] → p.owes id = false := by
    intro p hp
    rw [Poll.owes, Poll.hasPublished, hp, List.any_nil, Bool.false_and]
  have hacc := acc id
  simp only [System.step, List.countP_append, List.countP_singleton, hnone]
  simpa using hacc

theorem Accounted.step (acc : Accounted s) (h : Consistent s stages) (e : Event) :
    Accounted (s.step e) := by
  cases e with
  | write op => exact acc.write h op
  | poll forwarder broker cancel batchSize => exact acc.start forwarder broker cancel batchSize
  | advance i pool =>
    rcases h.advance_cases i pool with hs | ⟨p, rest, stage', hp, ha, hobeys, htold⟩
    · rwa [System.step, hs]
    · exact acc.advanced h hp (h.tracks i p hp) ha hobeys htold
  | broker broker activity => exact acc

theorem accounted_start (brokers : Nat → Memory) : Accounted { brokers } :=
  fun _ => rfl

/-! ## One reason at a time -/

/-- What a cycle at work has published, it holds. -/
theorem Poll.Tracks.holds (ht : p.Tracks o stage) (h : o.WellFormed) (hf : p.finished = false)
    {id : Int} (hid : p.hasPublished id = true) :
    o.isPublished id = false ∧
      ∃ tx t, p.tx = some tx ∧ o.transaction? tx = some t ∧ id ∈ t.locked := by
  obtain ⟨row, hrow, hrid⟩ := List.any_eq_true.mp hid
  obtain rfl : row.id = id := beq_iff_eq.mp hrid
  have hat := ht.at_stage
  cases stage with
  | fresh =>
    rw [hat.2.1] at hrow
    cases hrow
  | begun tx =>
    rw [hat.2.1] at hrow
    cases hrow
  | sending tx accepted todo =>
    obtain ⟨htx, rfl, -, locked, hopen, hold⟩ := hat
    have hmem := List.mem_append_left todo hrow
    exact ⟨hold.isPublished_eq_false h hmem, tx, _, htx, hopen, (hold.unpublished row hmem).2.2⟩
  | marked tx accepted =>
    obtain ⟨htx, rfl, -, locked, hopen, hold⟩ := hat
    exact ⟨hold.isPublished_eq_false h hrow, tx, _, htx, hopen, (hold.unpublished row hrow).2.2⟩
  | ended =>
    rw [ht.finished_iff.mpr rfl] at hf
    cases hf

/-- No two cycles at work have published the same row, and none has published a row that is
published already. -/
theorem Consistent.published_once (h : Consistent s stages) (id : Int) :
    (if s.outbox.isPublished id then 1 else 0) +
      s.polls.countP (fun p => !p.finished && p.hasPublished id) ≤ 1 := by
  have holds : ∀ (i : Nat) (p : Poll), s.polls[i]? = some p →
      (!p.finished && p.hasPublished id) = true → s.outbox.isPublished id = false ∧
        ∃ tx t, p.tx = some tx ∧ s.outbox.transaction? tx = some t ∧ id ∈ t.locked := by
    intro i p hp hsent
    rw [Bool.and_eq_true, Bool.not_eq_true'] at hsent
    exact (h.tracks i p hp).holds h.wellFormed hsent.1 hsent.2
  by_cases hpub : s.outbox.isPublished id = true
  · have hzero : s.polls.countP (fun p => !p.finished && p.hasPublished id) = 0 := by
      refine List.countP_eq_zero.mpr fun p hp hsent => ?_
      obtain ⟨i, hi⟩ := List.getElem?_of_mem hp
      rw [(holds i p hi hsent).1] at hpub
      cases hpub
    simp [hzero, hpub]
  · rw [if_neg hpub, Nat.zero_add]
    refine countP_le_one fun i j p q hp hq hpsent hqsent => ?_
    obtain ⟨-, tx₁, t₁, htx₁, hopen₁, hid₁⟩ := holds i p hp hpsent
    obtain ⟨-, tx₂, t₂, htx₂, hopen₂, hid₂⟩ := holds j q hq hqsent
    obtain rfl : tx₁ = tx₂ := h.wellFormed.locks.eq_of_mem hopen₁ hopen₂ hid₁ hid₂
    exact h.owned.distinct i j p q tx₁ hp hq htx₁ htx₂

/-! ## All of it -/

/-- What the logs have got of the rows. -/
structure Accounting (s : System) : Prop where
  /-- Each entry for a row stands for the published row, for a cycle that has published it and failed
  to commit, or for a cycle at work that has published it. -/
  count : ∀ id, s.appended.countP (·.entry.id == id) =
    (if s.outbox.isPublished id then 1 else 0) +
      s.polls.countP (fun p => p.finished && p.commitFailed && p.hasPublished id) +
      s.polls.countP (fun p => !p.finished && p.hasPublished id)
  /-- An entry says what its row says, and goes where the cycle's forwarder sends it. -/
  sent : ∀ a ∈ s.appended, ∃ p, s.polls[a.poll]? = some p ∧ a.broker = p.broker ∧
    a.publishing.destination.exchange = p.forwarder.exchange ∧
    a.publishing.destination.routingKey = a.entry.eventName ∧
    a.publishing.destination.headers = a.entry.headers ∧
    a.publishing.body = a.entry.payload.encode
  committed : ∀ a ∈ s.appended,
    ∃ row ∈ s.outbox.rows, row = a.entry ∨ row = { a.entry with published := true }
  logs : ∀ b, ((s.appended.filter (·.broker == b)).map (·.publishing)).Sublist
    (s.brokers b).published
  /-- At least once: what is published is in a log. -/
  arrived : ∀ row ∈ s.outbox.rows, row.published = true →
    ∃ a ∈ s.appended, a.publishing ∈ (s.brokers a.broker).published ∧
      a.entry = { row with published := a.entry.published }
  /-- More often only by commits that failed. -/
  repeated : ∀ id, s.appended.countP (·.entry.id == id) ≤
    1 + s.polls.countP (fun p => p.finished && p.commitFailed && p.hasPublished id)

/-- Entries are in the log of their broker. -/
theorem Logged.mem_published (l : Logged s) {a : Appended} (ha : a ∈ s.appended) :
    a.publishing ∈ (s.brokers a.broker).published := by
  refine (l.logs a.broker).subset (List.mem_map_of_mem (List.mem_filter.mpr ⟨ha, ?_⟩))
  exact beq_self_eq_true a.broker

theorem Logged.arrived (l : Logged s) (acc : Accounted s) (h : Consistent s stages)
    {row : OutboxEntry} (hrow : row ∈ s.outbox.rows) (hpub : row.published = true) :
    ∃ a ∈ s.appended, a.publishing ∈ (s.brokers a.broker).published ∧
      a.entry = { row with published := a.entry.published } := by
  have hcount : 0 < s.appended.countP (·.entry.id == row.id) := by
    rw [acc row.id, Outbox.isPublished_iff.mpr ⟨row, hrow, rfl, hpub⟩]
    exact Nat.lt_of_lt_of_le Nat.zero_lt_one (Nat.le_add_right _ _)
  obtain ⟨a, ha, hid⟩ := List.countP_pos_iff.mp hcount
  refine ⟨a, ha, l.mem_published ha, ?_⟩
  -- the row of the entry is this one, since it has its id
  obtain ⟨row', hrow', e⟩ := l.committed a ha
  have hid' : row'.id = row.id := by
    rcases e with rfl | rfl <;> exact beq_iff_eq.mp hid
  obtain rfl := h.wellFormed.ascending.eq_of_id_eq hrow' hrow hid'
  rcases e with rfl | rfl <;> rfl

/-- Whatever writers, cycles and brokers do, in whatever order, and whichever publishes and commits
fail, the logs have got of each row what they should. -/
theorem accounting (brokers : Nat → Memory) (events : List Event) :
    Accounting (({ brokers } : System).after events) := by
  obtain ⟨stages, h, acc, l⟩ :=
    (consistent_start brokers).after (fun s => Accounted s ∧ Logged s)
      ⟨accounted_start brokers, logged_start brokers⟩
      (fun s stages e h hs => ⟨hs.1.step h e, hs.2.step h e⟩) events
  generalize ({ brokers } : System).after events = s at h acc l
  have hcount : ∀ id, s.appended.countP (·.entry.id == id) =
      (if s.outbox.isPublished id then 1 else 0) +
        s.polls.countP (fun p => p.finished && p.commitFailed && p.hasPublished id) +
        s.polls.countP (fun p => !p.finished && p.hasPublished id) := by
    intro id
    rw [acc id, countP_owes, Nat.add_assoc]
    cases s.outbox.isPublished id <;> rfl
  refine ⟨hcount, fun a ha => ?_, l.committed, l.logs, fun row => l.arrived acc h, fun id => ?_⟩
  · obtain ⟨p, hp, hb, hpub⟩ := l.sent a ha
    exact ⟨p, hp, hb, by rw [hpub]; exact ⟨rfl, rfl, rfl, rfl⟩⟩
  · have honce := h.published_once id
    rw [hcount id]
    omega

end Courier.Pipeline
