import Courier.Proofs.Outbox.Transactions

/-!
# Operations on an outbox

Whoever uses an outbox does so by the operations of its transactions, in any order and with any
number of transactions open at the same time. `step` is one operation, `after` a sequence of them;
an operation on a transaction that has ended does nothing.

`step_change` says once what an operation can do: nothing, or one of the eight changes of `Change`.
What holds of all operations is proved from it, by one case for each change.
-/

namespace Courier

/-- The row that a new entry becomes under an id. -/
def NewEntry.row (entry : NewEntry) (id : Int) : OutboxEntry where
  id := id
  eventName := entry.eventName
  payload := entry.payload
  headers := entry.headers
  createdAt := entry.createdAt
  published := false

/-- What the entry of an event holds, if the event has one. -/
theorem NewEntry.of_ofEvent {now : Int} {event : Event} {entry : NewEntry}
    (h : NewEntry.ofEvent now event = .ok entry) :
    event.payload = .ok entry.payload ∧ entry.eventName = event.name ∧
      entry.headers = Json.Object.ofPairs (event.tags.map fun tag => (tagHeader tag, .bool true)) ∧
      entry.createdAt = now := by
  unfold NewEntry.ofEvent at h
  cases hpayload : event.payload with
  | error cause =>
    rw [hpayload] at h
    exact absurd h nofun
  | ok payload =>
    rw [hpayload] at h
    obtain rfl := Except.ok.inj h
    exact ⟨rfl, rfl, rfl, rfl⟩

namespace Outbox

/-- An operation on an outbox. -/
inductive Operation where
  | begin
  | insert (tx : TransactionId) (entry : NewEntry)
  /-- Write an event, which may refuse to be encoded. -/
  | emit (tx : TransactionId) (now : Int) (event : Event)
  | fetch (tx : TransactionId) (limit : Nat)
  | mark (tx : TransactionId) (ids : List Int)
  | commit (tx : TransactionId)
  | rollback (tx : TransactionId)
  /-- Let go of a transaction. -/
  | drop (tx : TransactionId)
  | failNextCommits (count : Nat)

namespace Operation

/-- The transaction that an operation is about. -/
def transaction? : Operation → Option TransactionId
  | .begin => none
  | .insert tx _ => some tx
  | .emit tx _ _ => some tx
  | .fetch tx _ => some tx
  | .mark tx _ => some tx
  | .commit tx => some tx
  | .rollback tx => some tx
  | .drop tx => some tx
  | .failNextCommits _ => none

/-- Does the operation end its transaction? -/
def ends : Operation → Bool
  | .commit _ => true
  | .rollback _ => true
  | .drop _ => true
  | _ => false

/-- Does the operation write a row? -/
def writes : Operation → Bool
  | .insert _ _ => true
  | .emit _ _ _ => true
  | _ => false

end Operation

/-- Carry out an operation. -/
def step (o : Outbox) : Operation → Outbox
  | .begin => o.begin.2
  | .insert tx entry => ((o.insert tx entry).map Prod.snd).getD o
  | .emit tx now event => ((o.emit tx now event).map Prod.snd).getD o
  | .fetch tx limit => ((o.fetch tx limit).map Prod.snd).getD o
  | .mark tx ids => (o.mark tx ids).getD o
  | .commit tx => ((o.commit tx).map Prod.snd).getD o
  | .rollback tx => (o.rollback tx).getD o
  | .drop tx => (o.rollback tx).getD o
  | .failNextCommits count => o.failNextCommits count

/-- Carry out operations one after another. -/
def after (o : Outbox) (operations : List Operation) : Outbox :=
  operations.foldl step o

/-! ## What operations do to an open transaction -/

/-- An open transaction has staged a row. -/
def stage (o : Outbox) (tx : TransactionId) (t : OutboxTransaction) (entry : NewEntry) : Outbox :=
  { o with lastId := o.lastId + 1 }.setTransaction tx
    (some { t with inserts := t.inserts ++ [entry.row (o.lastId + 1)] })

/-- An open transaction has fetched rows. -/
def lock (o : Outbox) (tx : TransactionId) (t : OutboxTransaction) (limit : Nat) : Outbox :=
  { o with locked := o.locked ++ (o.available limit).map OutboxEntry.id }.setTransaction tx
    (some { t with locked := t.locked ++ (o.available limit).map OutboxEntry.id })

section Open

variable {o : Outbox} {tx : TransactionId} {t : OutboxTransaction} (h : o.transaction? tx = some t)

include h

theorem insert_of_open (entry : NewEntry) :
    o.insert tx entry = some (o.lastId + 1, o.stage tx t entry) := by
  simp only [insert, h, Option.bind_eq_bind, Option.bind_some]
  rfl

theorem emit_of_open (now : Int) (event : Event) :
    o.emit tx now event =
      match NewEntry.ofEvent now event with
      | .error cause => some (.error (.encoding cause), o)
      | .ok entry => some (.ok (o.lastId + 1), o.stage tx t entry) := by
  unfold emit
  cases NewEntry.ofEvent now event with
  | error cause => simp only [h, Option.bind_eq_bind, Option.bind_some]
  | ok entry => simp only [insert_of_open h, Option.bind_eq_bind, Option.bind_some]

theorem fetch_of_open (limit : Nat) :
    o.fetch tx limit = some (o.available limit, o.lock tx t limit) := by
  simp only [fetch, h, Option.bind_eq_bind, Option.bind_some]
  rfl

theorem mark_of_open (ids : List Int) :
    o.mark tx ids = some (o.setTransaction tx (some { t with marks := t.marks ++ ids })) := by
  simp only [mark, h, Option.bind_eq_bind, Option.bind_some]

theorem rollback_of_open : o.rollback tx = some (o.finish tx t) := by
  simp only [rollback, h, Option.bind_eq_bind, Option.bind_some]

theorem commit_of_open (hf : o.failingCommits = 0) :
    o.commit tx = some (.ok (), { o with rows := applied t o.rows }.finish tx t) := by
  simp only [commit, h, Option.bind_eq_bind, Option.bind_some, hf, Nat.lt_irrefl, if_false]

theorem commit_of_failing (hf : 0 < o.failingCommits) :
    o.commit tx = some (.error .commitFailed,
      { o with failingCommits := o.failingCommits - 1 }.finish tx t) := by
  simp only [commit, h, Option.bind_eq_bind, Option.bind_some, if_pos hf]

end Open

/-! ## What an operation can do -/

/-- What an operation can do to an outbox. -/
inductive Change (o : Outbox) : Operation → Outbox → Prop where
  | idle {op : Operation} : Change o op o
  | begin : Change o .begin o.begin.2
  | stage {op : Operation} {tx : TransactionId} {t : OutboxTransaction} (entry : NewEntry)
      (h : o.transaction? tx = some t) (hop : op.transaction? = some tx ∧ op.writes = true) :
      Change o op (o.stage tx t entry)
  | lock {tx : TransactionId} {t : OutboxTransaction} (limit : Nat)
      (h : o.transaction? tx = some t) : Change o (.fetch tx limit) (o.lock tx t limit)
  | marks {tx : TransactionId} {t : OutboxTransaction} (ids : List Int)
      (h : o.transaction? tx = some t) :
      Change o (.mark tx ids) (o.setTransaction tx (some { t with marks := t.marks ++ ids }))
  | apply {tx : TransactionId} {t : OutboxTransaction} (h : o.transaction? tx = some t)
      (hf : o.failingCommits = 0) :
      Change o (.commit tx) ({ o with rows := applied t o.rows }.finish tx t)
  | refuse {tx : TransactionId} {t : OutboxTransaction} (h : o.transaction? tx = some t)
      (hf : 0 < o.failingCommits) :
      Change o (.commit tx) ({ o with failingCommits := o.failingCommits - 1 }.finish tx t)
  | discard {op : Operation} {tx : TransactionId} {t : OutboxTransaction}
      (h : o.transaction? tx = some t) (hop : op.transaction? = some tx ∧ op.ends = true) :
      Change o op (o.finish tx t)
  | failing (count : Nat) : Change o (.failNextCommits count) (o.failNextCommits count)

/-- An operation on a transaction that has ended does nothing. -/
theorem step_of_ended {o : Outbox} {tx : TransactionId} {op : Operation}
    (hop : op.transaction? = some tx) (h : o.transaction? tx = none) : o.step op = o := by
  cases op <;> simp only [Operation.transaction?, reduceCtorEq, Option.some.injEq] at hop <;> subst hop
  case emit now event =>
    simp only [step, emit]
    split <;> simp [insert, h]
  all_goals simp [step, insert, fetch, mark, commit, rollback, h]

/-- What one operation can do. -/
theorem step_change (o : Outbox) (op : Operation) : Change o op (o.step op) := by
  cases htx : op.transaction? with
  | none =>
    cases op <;> cases htx
    · exact .begin
    · exact .failing _
  | some tx =>
    cases h : o.transaction? tx with
    | none => rw [step_of_ended htx h]; exact .idle
    | some t =>
      cases op <;> simp only [Operation.transaction?, reduceCtorEq, Option.some.injEq] at htx <;>
        subst htx
      case insert entry =>
        simp only [step, insert_of_open h, Option.map_some, Option.getD_some]
        exact .stage entry h ⟨rfl, rfl⟩
      case emit now event =>
        simp only [step, emit_of_open h]
        cases NewEntry.ofEvent now event with
        | error cause => exact .idle
        | ok entry => exact .stage entry h ⟨rfl, rfl⟩
      case fetch limit =>
        simp only [step, fetch_of_open h, Option.map_some, Option.getD_some]
        exact .lock limit h
      case mark ids =>
        simp only [step, mark_of_open h, Option.getD_some]
        exact .marks ids h
      case commit =>
        rcases Nat.eq_zero_or_pos o.failingCommits with hf | hf
        · simp only [step, commit_of_open h hf, Option.map_some, Option.getD_some]
          exact .apply h hf
        · simp only [step, commit_of_failing h hf, Option.map_some, Option.getD_some]
          exact .refuse h hf
      all_goals
        simp only [step, rollback_of_open h, Option.getD_some]
        exact .discard h ⟨rfl, rfl⟩

end Outbox

end Courier
