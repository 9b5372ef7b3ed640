import Courier.Proofs.Outbox.Rows
import Courier.Proofs.Relay.Storage

/-!
# One cycle of a relay

What `Relay.poll` does to an outbox, with any publisher: `poll_effect` says which rows the publisher
is called with, what the hook is told, what is answered, and what has changed in the outbox.

A cycle has five ends, and each of them closes the transaction. The transaction is the last one of
its outbox, so the outbox meanwhile is that of before with one more transaction (`opened`); when it
is over, there is one more that has ended, and the locks are those of before (`finish_opened`).
-/

namespace Courier

namespace Outbox

/-- The outbox with one more transaction, which keeps these rows locked. -/
def opened (o : Outbox) (t : OutboxTransaction) : Outbox :=
  { o with locked := o.locked ++ t.locked, transactions := o.transactions ++ [some t] }

/-- The outbox with one more transaction, which has ended. -/
def closed (o : Outbox) : Outbox :=
  { o with transactions := o.transactions ++ [none] }

variable {o : Outbox} {t : OutboxTransaction}

theorem begin_eq (o : Outbox) : o.begin = (o.transactions.length, o.opened {}) := by
  simp only [begin, opened, List.append_nil]

theorem transaction?_opened (o : Outbox) (t : OutboxTransaction) :
    (o.opened t).transaction? o.transactions.length = some t := by
  simp [opened, transaction?]

theorem available_opened (o : Outbox) (limit : Nat) :
    (o.opened {}).available limit = o.available limit := by
  simp [opened, available]

theorem lock_opened (o : Outbox) (limit : Nat) :
    (o.opened {}).lock o.transactions.length {} limit =
      o.opened { locked := (o.available limit).map (·.id) } := by
  simp [lock, available_opened]
  simp [opened, setTransaction, List.set_append_right]

theorem mark_opened (o : Outbox) (t : OutboxTransaction) (marks : List Int) :
    (o.opened t).setTransaction o.transactions.length (some { t with marks }) =
      o.opened { t with marks } := by
  simp [opened, setTransaction, List.set_append_right]

/-- A transaction that ends leaves the locks of before. -/
theorem finish_opened (h : ∀ id ∈ t.locked, id ∉ o.locked) :
    (o.opened t).finish o.transactions.length t = o.closed := by
  have hkeep : o.locked.filter (fun id => !t.locked.contains id) = o.locked :=
    List.filter_eq_self.mpr fun id hid => by simpa using fun hmem => h id hmem hid
  have hgive : t.locked.filter (fun id => !t.locked.contains id) = [] :=
    List.filter_eq_nil_iff.mpr (by simp)
  have hlocked : (o.opened t).locked.filter (fun id => !t.locked.contains id) = o.locked := by
    rw [opened, List.filter_append, hkeep, hgive, List.append_nil]
  rw [finish, hlocked]
  simp [opened, closed, setTransaction, List.set_append_right]

end Outbox

namespace Relay

/-- A publisher: what comes of sending a row after it was called with these. -/
abbrev Publisher := List OutboxEntry → OutboxEntry → Except String Unit

/-- What a cycle has around it. -/
structure Scene where
  outbox : Outbox
  /-- The rows that the publisher was called with, in order. -/
  sent : List OutboxEntry := []
  /-- What the hook was told, in order. -/
  told : List Hook := []

/-- Answer a cycle. -/
def answer (publisher : Publisher) : (r : Request) → Scene → Requests.Answer r × Scene
  | .send entry, s => (publisher s.sent entry, { s with sent := s.sent ++ [entry] })
  | .hook event, s => ((), { s with told := s.told ++ [event] })
  | r, s => ((Outbox.serve r s.outbox).1, { s with outbox := (Outbox.serve r s.outbox).2 })

variable {publisher : Publisher} {o : Outbox} {t : OutboxTransaction} {sent : List OutboxEntry}
  {told : List Hook}

/-! ## The rows that are sent -/

/-- How many rows the publisher takes before it refuses one. -/
def taken (publisher : Publisher) (before : List OutboxEntry) : List OutboxEntry → Nat
  | [] => 0
  | row :: rest =>
    match publisher before row with
    | .ok () => taken publisher (before ++ [row]) rest + 1
    | .error _ => 0

/-- What the hook is told of the row behind the first `count` ones, if there is one and it is
refused. -/
def refusal (publisher : Publisher) (before rows : List OutboxEntry) (count : Nat) : List Hook :=
  match rows[count]? with
  | none => []
  | some row =>
    match publisher (before ++ rows.take count) row with
    | .ok () => []
    | .error cause => [.publishError row.id cause]

/-- The publisher takes the first `count` rows and no more. -/
structure LongestTaken (publisher : Publisher) (before rows : List OutboxEntry) (count : Nat) :
    Prop where
  le : count ≤ rows.length
  takes : ∀ i row, i < count → rows[i]? = some row →
    publisher (before ++ rows.take i) row = .ok ()
  refuses : ∀ row, rows[count]? = some row →
    ∃ cause, publisher (before ++ rows.take count) row = .error cause

theorem longestTaken_taken (publisher : Publisher) (before rows : List OutboxEntry) :
    LongestTaken publisher before rows (taken publisher before rows) := by
  induction rows generalizing before with
  | nil => exact ⟨Nat.le_refl 0, fun i row hi => absurd hi (Nat.not_lt_zero i), by simp⟩
  | cons row rest ih =>
    cases hp : publisher before row with
    | error cause =>
      have hcount : taken publisher before (row :: rest) = 0 := by simp only [taken, hp]
      rw [hcount]
      refine ⟨Nat.zero_le _, fun i r hi => absurd hi (Nat.not_lt_zero i), fun r hr => ⟨cause, ?_⟩⟩
      obtain rfl : row = r := by simpa using hr
      simpa using hp
    | ok =>
      have hcount : taken publisher before (row :: rest) =
          taken publisher (before ++ [row]) rest + 1 := by simp only [taken, hp]
      have hbefore : ∀ i, before ++ (row :: rest).take (i + 1) = before ++ [row] ++ rest.take i := by
        simp
      obtain ⟨hle, htakes, hrefuses⟩ := ih (before ++ [row])
      rw [hcount]
      refine ⟨Nat.succ_le_succ hle, fun i r hi hr => ?_, fun r hr => ?_⟩
      · cases i with
        | zero =>
          obtain rfl : row = r := by simpa using hr
          simpa using hp
        | succ i =>
          rw [hbefore]
          exact htakes i r (Nat.lt_of_succ_lt_succ hi) (by simpa using hr)
      · rw [hbefore]
        exact hrefuses r (by simpa using hr)

/-- Rows are sent until one is refused, and the hook is told of each. -/
theorem run_sendAll (publisher : Publisher) (rows : List OutboxEntry) (s : Scene) :
    (sendAll rows).run (answer publisher) s =
      ((rows.take (taken publisher s.sent rows)).map (·.id),
        { s with
          sent := s.sent ++ rows.take (taken publisher s.sent rows + 1)
          told := s.told ++ (rows.take (taken publisher s.sent rows)).map (.published ·.id) ++
            refusal publisher s.sent rows (taken publisher s.sent rows) }) := by
  induction rows generalizing s with
  | nil => simp [sendAll, taken, refusal, Program.run]
  | cons row rest ih =>
    simp only [sendAll, send, tell, Program.request, Program.bind_eq, Program.ask_bind,
      Program.done_bind, Program.run, answer]
    cases hp : publisher s.sent row with
    | error cause =>
      simp [taken, hp, refusal, Program.run, answer]
    | ok =>
      simp only [Program.run, Program.run_bind, answer, ih]
      simp [taken, hp, refusal, Program.run]

/-! ## The parts of a cycle -/

theorem run_begin (publisher : Publisher) (s : Scene) :
    begin.run (answer publisher) s =
      (.ok s.outbox.transactions.length, { s with outbox := s.outbox.opened {} }) := by
  simp only [begin, Program.request, Program.run, answer, Outbox.serve, Outbox.begin_eq]

theorem run_fetch (publisher : Publisher) (o : Outbox) (limit : Nat) :
    (fetch o.transactions.length limit).run (answer publisher) ⟨o.opened {}, sent, told⟩ =
      (.ok (o.available limit),
        ⟨o.opened { locked := (o.available limit).map (·.id) }, sent, told⟩) := by
  simp only [fetch, Program.request, Program.run, answer,
    Outbox.serve_fetch (o.transaction?_opened {}), Outbox.available_opened, Outbox.lock_opened]

theorem run_abort {α : Type} (publisher : Publisher) (h : ∀ id ∈ t.locked, id ∉ o.locked)
    (result : α) :
    (abort o.transactions.length result).run (answer publisher) ⟨o.opened t, sent, told⟩ =
      (result, ⟨o.closed, sent, told⟩) := by
  simp only [abort, rollback, Program.request, Program.bind_eq, Program.pure_eq_done,
    Program.ask_bind, Program.done_bind, Program.run, answer,
    Outbox.serve_rollback (o.transaction?_opened t), Outbox.finish_opened h]

theorem run_mark (publisher : Publisher) (o : Outbox) (t : OutboxTransaction) (ids : List Int) :
    (mark o.transactions.length ids).run (answer publisher) ⟨o.opened t, sent, told⟩ =
      (.ok (), ⟨o.opened { t with marks := t.marks ++ ids }, sent, told⟩) := by
  simp only [mark, Program.request, Program.run, answer,
    Outbox.serve_mark (o.transaction?_opened t), Outbox.mark_opened]

theorem run_commit (publisher : Publisher) (h : ∀ id ∈ t.locked, id ∉ o.locked)
    (hf : o.failingCommits = 0) :
    (commit o.transactions.length).run (answer publisher) ⟨o.opened t, sent, told⟩ =
      (.ok (), ⟨{ o with rows := Outbox.applied t o.rows }.closed, sent, told⟩) := by
  have hfinish := Outbox.finish_opened (o := { o with rows := Outbox.applied t o.rows }) h
  simp only [commit, Program.request, Program.run, answer,
    Outbox.serve_commit (o.transaction?_opened t) hf]
  rw [← hfinish]
  rfl

theorem run_commit_failing (publisher : Publisher) (h : ∀ id ∈ t.locked, id ∉ o.locked)
    (hf : 0 < o.failingCommits) :
    (commit o.transactions.length).run (answer publisher) ⟨o.opened t, sent, told⟩ =
      (.error CommitError.commitFailed.message,
        ⟨{ o with failingCommits := o.failingCommits - 1 }.closed, sent, told⟩) := by
  have hfinish := Outbox.finish_opened (o := { o with failingCommits := o.failingCommits - 1 }) h
  simp only [commit, Program.request, Program.run, answer,
    Outbox.serve_commit_failing (o.transaction?_opened t) hf]
  rw [← hfinish]
  rfl

theorem run_tell (publisher : Publisher) (event : Hook) :
    (tell event).run (answer publisher) ⟨o, sent, told⟩ = ((), ⟨o, sent, told ++ [event]⟩) := rfl

/-! ## A whole cycle -/

/-- What has come of a cycle that found these rows, the first `count` of which were taken. -/
structure Effect (publisher : Publisher) (o : Outbox) (found : List OutboxEntry) (count : Nat)
    (result : Except RelayError Nat) (s : Scene) : Prop where
  sent : s.sent = found.take (count + 1)
  told : s.told = (if found = [] then [] else [.fetched found.length]) ++
    (found.take count).map (.published ·.id) ++ refusal publisher [] found count ++
    (if 0 < count ∧ o.failingCommits = 0 then [.committed count] else [])
  /-- Without a row that was taken there is nothing to commit. -/
  nothing : count = 0 → result = .ok 0 ∧ s.outbox = o.closed
  committed : 0 < count → o.failingCommits = 0 → result = .ok count ∧
    s.outbox = { o with
      rows := o.rows.map (OutboxEntry.markedIn ((found.take count).map OutboxEntry.id)) }.closed
  failed : 0 < count → 0 < o.failingCommits →
    result = .error ⟨CommitError.commitFailed.message⟩ ∧
      s.outbox = { o with failingCommits := o.failingCommits - 1 }.closed

variable {found : List OutboxEntry} {count : Nat}

/-- What the hook is told before the commit. -/
def sending (publisher : Publisher) (found : List OutboxEntry) (count : Nat) : List Hook :=
  (if found = [] then [] else [.fetched found.length]) ++
    (found.take count).map (.published ·.id) ++ refusal publisher [] found count

theorem effect_nothing (publisher : Publisher) (o : Outbox) (found : List OutboxEntry) :
    Effect publisher o found 0 (.ok 0) ⟨o.closed, found.take 1, sending publisher found 0⟩ where
  sent := rfl
  told := by simp [sending]
  nothing _ := ⟨rfl, rfl⟩
  committed h := absurd h (Nat.lt_irrefl 0)
  failed h := absurd h (Nat.lt_irrefl 0)

theorem effect_committed (hpos : 0 < count) (hf : o.failingCommits = 0) :
    Effect publisher o found count (.ok count)
      ⟨{ o with
          rows := o.rows.map (OutboxEntry.markedIn ((found.take count).map OutboxEntry.id)) }.closed,
        found.take (count + 1), sending publisher found count ++ [.committed count]⟩ where
  sent := rfl
  told := by simp [sending, hpos, hf]
  nothing h := absurd h (Nat.ne_of_gt hpos)
  committed _ _ := ⟨rfl, rfl⟩
  failed _ h := absurd hf (Nat.ne_of_gt h)

theorem effect_failed (hpos : 0 < count) (hf : 0 < o.failingCommits) :
    Effect publisher o found count (.error ⟨CommitError.commitFailed.message⟩)
      ⟨{ o with failingCommits := o.failingCommits - 1 }.closed, found.take (count + 1),
        sending publisher found count⟩ where
  sent := rfl
  told := by simp [sending, Nat.ne_of_gt hf]
  nothing h := absurd h (Nat.ne_of_gt hpos)
  committed _ h := absurd h (Nat.ne_of_gt hf)
  failed _ _ := ⟨rfl, rfl⟩

/-- The exact effect of a cycle, on any outbox and with any publisher. The rows are kept by id, as
every operation keeps them (`Outbox.WellFormed.step`). -/
theorem poll_effect (publisher : Publisher) (h : Outbox.Ascending o.rows) (batchSize : Nat) :
    ∃ found count,
      Outbox.Lowest o.Unlocked batchSize found ∧
      LongestTaken publisher [] found count ∧
      Effect publisher o found count ((poll batchSize).run (answer publisher) ⟨o, [], []⟩).1
        ((poll batchSize).run (answer publisher) ⟨o, [], []⟩).2 := by
  refine ⟨o.available batchSize, taken publisher [] (o.available batchSize),
    Outbox.lowest_available h batchSize, longestTaken_taken publisher [] _, ?_⟩
  have hfree : ∀ id ∈ (o.available batchSize).map OutboxEntry.id, id ∉ o.locked := fun id hid => by
    obtain ⟨row, hrow, rfl⟩ := List.mem_map.mp hid
    exact (Outbox.unlocked_of_available hrow).unlocked
  simp only [poll, Program.bind_eq, Program.run_bind, run_begin, run_fetch]
  generalize o.available batchSize = found at hfree ⊢
  cases found with
  | nil =>
    simp only [run_abort (t := { locked := [] }) publisher hfree, List.map_nil]
    exact effect_nothing publisher o []
  | cons row rest =>
    simp only [Program.run_bind, run_tell, run_sendAll]
    generalize hcount : taken publisher [] (row :: rest) = count
    cases hids : ((row :: rest).take count).map OutboxEntry.id with
    | nil =>
      obtain rfl : count = 0 := by
        cases count with
        | zero => rfl
        | succ n => cases hids
      simp only [run_abort (t := { locked := (row :: rest).map OutboxEntry.id }) publisher hfree]
      exact effect_nothing publisher o (row :: rest)
    | cons id ids =>
      have hle : count ≤ (row :: rest).length := hcount ▸ (longestTaken_taken publisher [] _).le
      have hlength : (id :: ids).length = count := by
        rw [← hids, List.length_map, List.length_take_of_le hle]
      have hpos : 0 < count := by
        rw [← hlength]
        exact Nat.succ_pos _
      simp only [Program.run_bind, run_mark, List.nil_append]
      rcases Nat.eq_zero_or_pos o.failingCommits with hf | hf
      · simp only [run_commit (t := { locked := (row :: rest).map OutboxEntry.id, marks := id :: ids })
          publisher hfree hf, Program.run_bind, run_tell, hlength]
        have happlied := Outbox.applied_of_no_inserts
          (t := { locked := (row :: rest).map OutboxEntry.id, marks := id :: ids }) rfl o.rows
        rw [happlied, ← hids]
        exact effect_committed hpos hf
      · simp only [run_commit_failing
          (t := { locked := (row :: rest).map OutboxEntry.id, marks := id :: ids }) publisher hfree hf]
        exact effect_failed hpos hf

/-- Five rows; the first is published, and the third is locked. -/
def fiveRows : Outbox where
  rows := [1, 2, 3, 4, 5].map fun id =>
    { id, eventName := "order.paid", payload := .null, headers := [], createdAt := 0,
      published := id = 1 }
  locked := [3]
  lastId := 5

/-- A cycle for three of the rows finds the second and the last two; the last one is refused. -/
theorem poll_effect_fiveRows :
    ∃ publisher : Publisher,
      Outbox.Ascending fiveRows.rows ∧
      ((poll 3).run (answer publisher) ⟨fiveRows, [], []⟩).1 = .ok 2 ∧
      ∃ found count,
        Outbox.Lowest fiveRows.Unlocked 3 found ∧
        LongestTaken publisher [] found count ∧
        Effect publisher fiveRows found count
          ((poll 3).run (answer publisher) ⟨fiveRows, [], []⟩).1
          ((poll 3).run (answer publisher) ⟨fiveRows, [], []⟩).2 :=
  ⟨fun _ row => if row.id = 5 then .error "refused" else .ok (), by decide, rfl,
    poll_effect _ (by decide) 3⟩

end Relay

end Courier
