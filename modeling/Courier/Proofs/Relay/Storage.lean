import Courier.Proofs.Outbox.Operations
import Courier.Simulation.World

/-!
# The outbox as the storage of a relay

A relay knows its storage by requests, an outbox by operations. `Outbox.serve` is the answer of an
outbox to a request, and `outbox_serve` says that a request is the operation of its name, so what
every operation keeps every request keeps. `relay_eq_serve`: this is how the storage of a simulated
service answers while no call of it is told to fail.
-/

namespace Courier

/-- The operation that a request to the storage asks for. -/
def Relay.Request.operation? : Relay.Request → Option Outbox.Operation
  | .begin => some .begin
  | .fetch tx limit => some (.fetch tx limit)
  | .mark tx ids => some (.mark tx ids)
  | .commit tx => some (.commit tx)
  | .rollback tx => some (.rollback tx)
  | .send _ => none
  | .hook _ => none
  | .tick _ => none

namespace Outbox

/-- The answer for a transaction, which may have ended. -/
def orEnded {α : Type} (o : Outbox) : Option (Except String α × Outbox) → Except String α × Outbox
  | some answer => answer
  | none => (.error "the transaction has ended", o)

/-- Answer a relay. Rows, hooks and ticks are not the storage's business. -/
def serve : (r : Relay.Request) → Outbox → Requests.Answer r × Outbox
  | .begin, o => (.ok o.begin.1, o.begin.2)
  | .fetch tx limit, o => o.orEnded ((o.fetch tx limit).map fun (rows, o) => (.ok rows, o))
  | .mark tx ids, o => o.orEnded ((o.mark tx ids).map fun o => (.ok (), o))
  | .commit tx, o => o.orEnded ((o.commit tx).map fun (result, o) =>
      (result.mapError CommitError.message, o))
  | .rollback tx, o => o.orEnded ((o.rollback tx).map fun o => (.ok (), o))
  | .send _, o => (.ok (), o)
  | .hook _, o => ((), o)
  | .tick _, o => (none, o)

/-- A request does what its operation does. -/
theorem outbox_serve (r : Relay.Request) (o : Outbox) :
    (serve r o).2 = (r.operation?.map o.step).getD o := by
  cases r with
  | fetch tx limit => cases h : o.fetch tx limit <;> simp [serve, Relay.Request.operation?, step, h, orEnded]
  | mark tx ids => cases h : o.mark tx ids <;> simp [serve, Relay.Request.operation?, step, h, orEnded]
  | commit tx => cases h : o.commit tx <;> simp [serve, Relay.Request.operation?, step, h, orEnded]
  | rollback tx => cases h : o.rollback tx <;> simp [serve, Relay.Request.operation?, step, h, orEnded]
  | _ => rfl

theorem serve_eq {r : Relay.Request} {op : Operation} (h : r.operation? = some op) (o : Outbox)
    {a : Requests.Answer r} (ha : (serve r o).1 = a) : serve r o = (a, o.step op) := by
  refine Prod.ext ha ?_
  rw [outbox_serve, h]
  rfl

section Open

variable {o : Outbox} {tx : TransactionId} {t : OutboxTransaction} (h : o.transaction? tx = some t)

include h

theorem serve_fetch (limit : Nat) :
    serve (.fetch tx limit) o = (.ok (o.available limit), o.lock tx t limit) := by
  simp only [serve, fetch_of_open h, Option.map_some, orEnded]

theorem serve_mark (ids : List Int) :
    serve (.mark tx ids) o =
      (.ok (), o.setTransaction tx (some { t with marks := t.marks ++ ids })) := by
  simp only [serve, mark_of_open h, Option.map_some, orEnded]

theorem serve_rollback : serve (.rollback tx) o = (.ok (), o.finish tx t) := by
  simp only [serve, rollback_of_open h, Option.map_some, orEnded]

theorem serve_commit (hf : o.failingCommits = 0) :
    serve (.commit tx) o = (.ok (), { o with rows := applied t o.rows }.finish tx t) := by
  simp only [serve, commit_of_open h hf, Option.map_some, orEnded]
  rfl

theorem serve_commit_failing (hf : 0 < o.failingCommits) :
    serve (.commit tx) o = (.error CommitError.commitFailed.message,
      { o with failingCommits := o.failingCommits - 1 }.finish tx t) := by
  simp only [serve, commit_of_failing h hf, Option.map_some, orEnded]
  rfl

end Open

end Outbox

namespace Simulation.World

/-- A storage that is not told to fail carries out what it is asked for. -/
theorem storage_of_no_faults {α : Type} {w : World} (hf : w.storageFaults = [])
    (hn : w.storageNoted = false) (r : Relay.Request) (call : StorageCall)
    (ends : Option TransactionId) (carryOut : Outbox → Option (Except String α × Outbox)) :
    w.storage r call ends carryOut =
      ((w.outbox.orEnded (carryOut w.outbox)).1,
        { w with outbox := (w.outbox.orEnded (carryOut w.outbox)).2 }) := by
  have hnote : w.noteStorage r = w := by
    rw [noteStorage, hn]
    rfl
  have hfails : w.storageFails call = (false, w) := by
    rw [storageFails, hf]
    rfl
  simp only [storage, hnote, hfails]
  cases carryOut w.outbox <;> rfl

/-- The storage of a simulated service answers as its outbox does. -/
theorem relay_eq_serve {w : World} (hf : w.storageFaults = []) (hn : w.storageNoted = false)
    (task : TaskId) (cancel : TokenId) {r : Relay.Request} (hr : r.operation?.isSome) :
    relay task cancel r w =
      (.ready (Outbox.serve r w.outbox).1, { w with outbox := (Outbox.serve r w.outbox).2 }) := by
  cases r with
  | send entry => cases hr
  | hook event => cases hr
  | tick due => cases hr
  | begin =>
    simp only [relay, storage_of_no_faults hf hn]
    rfl
  | fetch tx limit =>
    simp only [relay, storage_of_no_faults hf hn, answered, Outbox.serve]
    cases w.outbox.fetch tx limit <;> rfl
  | mark tx ids =>
    simp only [relay, storage_of_no_faults hf hn, answered, Outbox.serve]
    cases w.outbox.mark tx ids <;> rfl
  | commit tx =>
    simp only [relay, storage_of_no_faults hf hn, answered, Outbox.serve]
    cases w.outbox.commit tx <;> rfl
  | rollback tx =>
    simp only [relay, storage_of_no_faults hf hn, answered, Outbox.serve]
    cases w.outbox.rollback tx <;> rfl

end Simulation.World

end Courier
