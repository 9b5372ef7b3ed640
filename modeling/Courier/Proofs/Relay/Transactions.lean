import Courier.Proofs.Dialogue
import Courier.Proofs.Relay.Storage
import Mathlib.Data.List.Basic

/-!
# The transaction of a cycle

How a cycle treats its transaction, whatever storage, publisher and hook it has: each of them may
answer anything to each request.

* `Cycled`: what a cycle can ask and be told (`Cycled.of_told`, `Cycled.told`). The transaction is
  not begun; or the rows are not fetched; or they are fetched and handed over (`Opened`), and then
  there are four ends (`Closed`), which depend on whether any row was accepted, marking succeeded
  and the commit did;
* `Transacted`: what comes of that for the transaction and the result;
* `poll_transacted`: every run of a cycle is such.
-/

namespace Courier.Relay

/-! ## What a cycle asks and is told -/

/-- Rows are handed over in their order until one is refused; the last argument are the accepted
ones. -/
inductive Handed : List OutboxEntry → List (Program.Event Request) → List OutboxEntry → Prop where
  | done : Handed [] [] []
  | stop (entry : OutboxEntry) (rest : List OutboxEntry) (cause : String) :
      Handed (entry :: rest)
        [⟨.send entry, .error cause⟩, ⟨.hook (.publishError entry.id cause), ()⟩] []
  | next {entry : OutboxEntry} {rest taken : List OutboxEntry}
      {events : List (Program.Event Request)} (h : Handed rest events taken) :
      Handed (entry :: rest)
        (⟨.send entry, .ok ()⟩ :: ⟨.hook (.published entry.id), ()⟩ :: events) (entry :: taken)

/-- The rows of a batch are fetched and handed over; the hook is told unless there are none. -/
inductive Opened (batchSize tx : Nat) :
    List (Program.Event Request) → List OutboxEntry → List OutboxEntry → Prop where
  | nothing : Opened batchSize tx [⟨.fetch tx batchSize, .ok []⟩] [] []
  | rows {row : OutboxEntry} {rest taken : List OutboxEntry} {events : List (Program.Event Request)}
      (h : Handed (row :: rest) events taken) :
      Opened batchSize tx
        (⟨.fetch tx batchSize, .ok (row :: rest)⟩ ::
          ⟨.hook (.fetched (row :: rest).length), ()⟩ :: events) (row :: rest) taken

/-- What is done with the accepted rows, and what the cycle answers. -/
inductive Closed (tx : Nat) (taken : List OutboxEntry) :
    List (Program.Event Request) → Except RelayError Nat → Prop where
  | fruitless (h : taken = []) (reply : Except String Unit) :
      Closed tx taken [⟨.rollback tx, reply⟩] (.ok 0)
  | unmarked (hne : taken ≠ []) (cause : String) (reply : Except String Unit) :
      Closed tx taken [⟨.mark tx (taken.map (·.id)), .error cause⟩, ⟨.rollback tx, reply⟩]
        (.error ⟨cause⟩)
  | uncommitted (hne : taken ≠ []) (cause : String) :
      Closed tx taken [⟨.mark tx (taken.map (·.id)), .ok ()⟩, ⟨.commit tx, .error cause⟩]
        (.error ⟨cause⟩)
  | committed {count : Nat} (hne : taken ≠ []) (hcount : count = taken.length) :
      Closed tx taken
        [⟨.mark tx (taken.map (·.id)), .ok ()⟩, ⟨.commit tx, .ok ()⟩,
          ⟨.hook (.committed count), ()⟩] (.ok count)

/-- A cycle. -/
inductive Cycled (batchSize : Nat) :
    List (Program.Event Request) → Except RelayError Nat → Prop where
  | unbegun (cause : String) : Cycled batchSize [⟨.begin, .error cause⟩] (.error ⟨cause⟩)
  | unfetched (tx : Nat) (cause : String) (reply : Except String Unit) :
      Cycled batchSize
        [⟨.begin, .ok tx⟩, ⟨.fetch tx batchSize, .error cause⟩, ⟨.rollback tx, reply⟩]
        (.error ⟨cause⟩)
  | opened {tx : Nat} {opening closing : List (Program.Event Request)}
      {rows taken : List OutboxEntry} {result : Except RelayError Nat}
      (h : Opened batchSize tx opening rows taken) (hclose : Closed tx taken closing result) :
      Cycled batchSize (⟨.begin, .ok tx⟩ :: (opening ++ closing)) result

section Told

open Program (told_bind)

variable {batchSize tx : Nat} {α : Type} {events : List (Program.Event Request)}

theorem told_abort {result result' : α} :
    (abort tx result).Told events result' ↔
      ∃ reply, events = [⟨.rollback tx, reply⟩] ∧ result' = result := by
  simp only [abort, rollback, Program.request, Program.bind_eq, Program.ask_bind,
    Program.done_bind, Program.pure_eq_done, Program.Told]
  grind

theorem told_sendAll {rows : List OutboxEntry} {ids : List Int} :
    (sendAll rows).Told events ids ↔
      ∃ taken, ids = taken.map (·.id) ∧ Handed rows events taken := by
  induction rows generalizing events ids with
  | nil =>
    constructor
    · rintro ⟨rfl, rfl⟩
      exact ⟨[], rfl, .done⟩
    · rintro ⟨_, rfl, h⟩
      cases h
      exact ⟨rfl, rfl⟩
  | cons entry rest ih =>
    simp only [sendAll, send, tell, Program.request, Program.bind_eq, Program.ask_bind,
      Program.done_bind]
    constructor
    · rintro ⟨answer, _, rfl, h⟩
      cases answer with
      | error cause =>
        obtain ⟨⟨⟩, _, rfl, rfl, rfl⟩ := h
        exact ⟨[], rfl, .stop entry rest cause⟩
      | ok =>
        obtain ⟨⟨⟩, _, rfl, h⟩ := h
        obtain ⟨ids, first, _, rfl, hfirst, rfl, rfl⟩ := told_bind.mp h
        obtain ⟨taken, rfl, hrest⟩ := ih.mp hfirst
        exact ⟨entry :: taken, rfl, by rw [List.append_nil]; exact .next hrest⟩
    · rintro ⟨_, rfl, h⟩
      cases h with
      | stop _ _ cause => exact ⟨.error cause, _, rfl, (), _, rfl, rfl, rfl⟩
      | @next _ _ taken events h =>
        refine ⟨.ok (), _, rfl, (), _, rfl, ?_⟩
        exact told_bind.mpr
          ⟨_, events, [], (List.append_nil _).symm, ih.mpr ⟨taken, rfl, h⟩, rfl, rfl⟩

variable {result : Except RelayError Nat}

theorem Cycled.of_told (h : (poll batchSize).Told events result) :
    Cycled batchSize events result := by
  simp only [poll, begin, fetch, mark, commit, tell, Program.request, Program.bind_eq,
    Program.ask_bind, Program.done_bind] at h
  obtain ⟨begun, _, rfl, h⟩ := h
  cases begun with
  | error cause =>
    obtain ⟨rfl, rfl⟩ := h
    exact .unbegun cause
  | ok tx =>
    obtain ⟨fetched, _, rfl, h⟩ := h
    match fetched with
    | .error cause =>
      obtain ⟨reply, rfl, rfl⟩ := told_abort.mp h
      exact .unfetched tx cause reply
    | .ok [] =>
      obtain ⟨reply, rfl, rfl⟩ := told_abort.mp h
      exact .opened .nothing (.fruitless rfl reply)
    | .ok (row :: rest) =>
      obtain ⟨⟨⟩, _, rfl, h⟩ := h
      obtain ⟨ids, sending, closing, rfl, hsending, hclosing⟩ := told_bind.mp h
      obtain ⟨taken, rfl, hhanded⟩ := told_sendAll.mp hsending
      refine .opened (.rows hhanded) ?_
      cases taken with
      | nil =>
        obtain ⟨reply, rfl, rfl⟩ := told_abort.mp hclosing
        exact .fruitless rfl reply
      | cons first more =>
        obtain ⟨marked, _, rfl, hclosing⟩ := hclosing
        cases marked with
        | error cause =>
          obtain ⟨reply, rfl, rfl⟩ := told_abort.mp hclosing
          exact .unmarked (List.cons_ne_nil first more) cause reply
        | ok =>
          obtain ⟨committed, _, rfl, hclosing⟩ := hclosing
          cases committed with
          | error cause =>
            obtain ⟨rfl, rfl⟩ := hclosing
            exact .uncommitted (List.cons_ne_nil first more) cause
          | ok =>
            obtain ⟨⟨⟩, _, rfl, rfl, rfl⟩ := hclosing
            exact .committed (List.cons_ne_nil first more) (List.length_map _)

theorem Cycled.told (h : Cycled batchSize events result) :
    (poll batchSize).Told events result := by
  simp only [poll, begin, fetch, mark, commit, tell, Program.request, Program.bind_eq,
    Program.ask_bind, Program.done_bind]
  obtain cause | ⟨tx, cause, reply⟩ | @⟨tx, _, closing, _, taken, _, hopened, hclosing⟩ := h
  · exact ⟨_, _, rfl, rfl, rfl⟩
  · exact ⟨_, _, rfl, _, _, rfl, told_abort.mpr ⟨reply, rfl, rfl⟩⟩
  · refine ⟨_, _, rfl, ?_⟩
    cases hopened with
    | nothing =>
      cases hclosing with
      | fruitless _ reply => exact ⟨_, _, rfl, told_abort.mpr ⟨reply, rfl, rfl⟩⟩
      | _ hne => exact absurd rfl hne
    | rows h =>
      refine ⟨_, _, rfl, (), _, rfl, told_bind.mpr ⟨_, _, closing, rfl,
        told_sendAll.mpr ⟨taken, rfl, h⟩, ?_⟩⟩
      cases taken with
      | nil =>
        cases hclosing with
        | fruitless _ reply => exact told_abort.mpr ⟨reply, rfl, rfl⟩
        | _ hne => exact absurd rfl hne
      | cons first more =>
        cases hclosing with
        | fruitless h => cases h
        | unmarked _ cause reply => exact ⟨_, _, rfl, told_abort.mpr ⟨reply, rfl, rfl⟩⟩
        | uncommitted _ cause => exact ⟨_, _, rfl, _, _, rfl, rfl, rfl⟩
        | committed _ hcount =>
          obtain rfl := hcount.trans (List.length_map (·.id)).symm
          exact ⟨_, _, rfl, _, _, rfl, (), _, rfl, rfl, rfl⟩

end Told

/-! ## What is read off a cycle -/

/-- The requests that went to the storage. -/
def storageCalls (events : List (Program.Event Request)) : List (Program.Event Request) :=
  events.filter (·.request.operation?.isSome)

/-- The transaction that a request ends. -/
def Request.ended? : Request → Option Nat
  | .commit tx => some tx
  | .rollback tx => some tx
  | _ => none

/-- The row that a request hands over. -/
def Request.entry? : Request → Option OutboxEntry
  | .send entry => some entry
  | _ => none

/-- The row that was handed over and that the publisher took. -/
def accepted? : (r : Request) → Requests.Answer r → Option OutboxEntry
  | .send entry, .ok () => some entry
  | _, _ => none

/-- The row that was handed over and that the publisher refused. -/
def refused? : (r : Request) → Requests.Answer r → Option OutboxEntry
  | .send entry, .error _ => some entry
  | _, _ => none

/-- Why the storage failed. A rollback that fails is left out. -/
def failure? : (r : Request) → Requests.Answer r → Option String
  | .begin, .error cause => some cause
  | .fetch .., .error cause => some cause
  | .mark .., .error cause => some cause
  | .commit _, .error cause => some cause
  | _, _ => none

def handedOver (events : List (Program.Event Request)) : List OutboxEntry :=
  events.filterMap (·.request.entry?)

def accepted (events : List (Program.Event Request)) : List OutboxEntry :=
  events.filterMap fun event => accepted? event.request event.answer

def refused (events : List (Program.Event Request)) : List OutboxEntry :=
  events.filterMap fun event => refused? event.request event.answer

def failures (events : List (Program.Event Request)) : List String :=
  events.filterMap fun event => failure? event.request event.answer

theorem mem_storageCalls {events : List (Program.Event Request)} {event : Program.Event Request}
    (h : event.request.operation?.isSome) : event ∈ events ↔ event ∈ storageCalls events := by
  rw [storageCalls, List.mem_filter]
  exact (and_iff_left h).symm

section Reading

variable {rows taken : List OutboxEntry} {events : List (Program.Event Request)}

/-- The rows that are handed over are the accepted ones, and the next one if there is one, which is
refused. -/
theorem Handed.longest (h : Handed rows events taken) :
    ∃ count ≤ rows.length, handedOver events = rows.take (count + 1) ∧
      taken = rows.take count ∧ refused events = rows[count]?.toList := by
  induction h with
  | done => exact ⟨0, Nat.le_refl 0, rfl, rfl, rfl⟩
  | stop entry rest cause => exact ⟨0, Nat.zero_le _, rfl, rfl, rfl⟩
  | @next entry rest taken events h ih =>
    obtain ⟨count, hle, hover, rfl, hrefused⟩ := ih
    exact ⟨count + 1, Nat.succ_le_succ hle, congrArg (entry :: ·) hover, rfl, hrefused⟩

theorem Handed.accepted_eq (h : Handed rows events taken) : accepted events = taken := by
  induction h with
  | done => rfl
  | stop entry rest cause => rfl
  | next h ih => exact congrArg (_ :: ·) ih

/-- To hand rows over is not the storage's business. -/
theorem Handed.storageCalls_eq (h : Handed rows events taken) : storageCalls events = [] := by
  induction h with
  | done => rfl
  | stop entry rest cause => rfl
  | next h ih => exact ih

theorem Handed.failures_eq (h : Handed rows events taken) : failures events = [] := by
  induction h with
  | done => rfl
  | stop entry rest cause => rfl
  | next h ih => exact ih

section Opened

variable {batchSize tx : Nat} (h : Opened batchSize tx events rows taken)

include h

theorem Opened.longest :
    ∃ count ≤ rows.length, handedOver events = rows.take (count + 1) ∧
      taken = rows.take count ∧ refused events = rows[count]?.toList := by
  cases h with
  | nothing => exact ⟨0, Nat.le_refl 0, rfl, rfl, rfl⟩
  | rows h => exact h.longest

theorem Opened.accepted_eq : accepted events = taken := by
  cases h with
  | nothing => rfl
  | rows h => exact h.accepted_eq

theorem Opened.storageCalls_eq : storageCalls events = [⟨.fetch tx batchSize, .ok rows⟩] := by
  cases h with
  | nothing => rfl
  | rows h => exact congrArg (_ :: ·) h.storageCalls_eq

theorem Opened.failures_eq : failures events = [] := by
  cases h with
  | nothing => rfl
  | rows h => exact h.failures_eq

end Opened

end Reading

section Parts

variable (first second : List (Program.Event Request))

@[simp] theorem storageCalls_append :
    storageCalls (first ++ second) = storageCalls first ++ storageCalls second :=
  List.filter_append ..

@[simp] theorem handedOver_append :
    handedOver (first ++ second) = handedOver first ++ handedOver second :=
  List.filterMap_append ..

@[simp] theorem accepted_append : accepted (first ++ second) = accepted first ++ accepted second :=
  List.filterMap_append ..

@[simp] theorem refused_append : refused (first ++ second) = refused first ++ refused second :=
  List.filterMap_append ..

@[simp] theorem failures_append : failures (first ++ second) = failures first ++ failures second :=
  List.filterMap_append ..

end Parts

/-! ## The discipline -/

/-- How a cycle treats its transaction, told from what it asked and was told, and from its
result. -/
structure Transacted (batchSize : Nat) (events : List (Program.Event Request))
    (result : Except RelayError Nat) : Prop where
  /-- One transaction is begun, first of all. -/
  begun : ∃ answer rest, events = ⟨.begin, answer⟩ :: rest ∧ ∀ event ∈ rest, event.request ≠ .begin
  /-- If there is none then nothing else is asked. -/
  unbegun : ∀ cause, ⟨.begin, .error cause⟩ ∈ events → events = [⟨.begin, .error cause⟩]
  /-- A transaction that was begun is ended once, by the last request to the storage. -/
  ended : ∀ tx, ⟨.begin, .ok tx⟩ ∈ events → ∃ before last,
    storageCalls events = before ++ [last] ∧ last.request.ended? = some tx ∧
      ∀ event ∈ before, event.request.ended? = none
  /-- Of the rows that were fetched the publisher is handed the first ones, in their order: those
  that it accepts, and the next one if there is one, which it refuses. -/
  handed : ∀ tx limit rows, ⟨.fetch tx limit, .ok rows⟩ ∈ events → limit = batchSize ∧
    ∃ count ≤ rows.length, handedOver events = rows.take (count + 1) ∧
      accepted events = rows.take count ∧ refused events = rows[count]?.toList
  /-- A commit comes right behind a success in marking just the rows that were accepted, of which
  there are some. -/
  committed : ∀ tx reply, ⟨.commit tx, reply⟩ ∈ events → accepted events ≠ [] ∧
    (∃ rows, ⟨.fetch tx batchSize, .ok rows⟩ ∈ events) ∧
    ∃ before after, events =
      before ++ ⟨.mark tx ((accepted events).map (·.id)), .ok ()⟩ :: ⟨.commit tx, reply⟩ :: after
  /-- The cycle fails just if the storage failed, a rollback apart, and with that failure. -/
  error_iff : ∀ e, result = .error e ↔ failures events = [e.cause]
  ok_iff : (∃ count, result = .ok count) ↔ failures events = []
  /-- Rows count as published just if the commit succeeded, and they are the accepted ones. -/
  count_iff : ∀ count, 0 < count →
    (result = .ok count ↔ (∃ tx, ⟨.commit tx, .ok ()⟩ ∈ events) ∧ count = (accepted events).length)
  /-- What a rollback answers makes no difference. -/
  rollback : ∀ before tx reply after, events = before ++ ⟨.rollback tx, reply⟩ :: after →
    ∀ other, (poll batchSize).Told (before ++ ⟨.rollback tx, other⟩ :: after) result

section Cycled

variable {batchSize tx : Nat} {rows taken : List OutboxEntry}
  {opening closing events : List (Program.Event Request)} {result : Except RelayError Nat}

/-- Of the storage only the batch is asked for while rows are handed over. -/
theorem Opened.storage (h : Opened batchSize tx opening rows taken)
    {event : Program.Event Request} (hevent : event.request.operation?.isSome) :
    event ∈ opening ↔ event = ⟨.fetch tx batchSize, .ok rows⟩ := by
  rw [mem_storageCalls hevent, h.storageCalls_eq, List.mem_singleton]

/-- Nothing is handed over any more. -/
theorem Closed.quiet (h : Closed tx taken closing result) :
    handedOver closing = [] ∧ accepted closing = [] ∧ refused closing = [] := by
  cases h <;> exact ⟨rfl, rfl, rfl⟩

theorem Closed.ended (h : Closed tx taken closing result) :
    ∃ before last, storageCalls closing = before ++ [last] ∧ last.request.ended? = some tx ∧
      ∀ event ∈ before, event.request.ended? = none := by
  cases h with
  | fruitless h reply => exact ⟨[], _, rfl, rfl, by simp⟩
  | unmarked hne cause reply => exact ⟨[_], _, rfl, rfl, by simp [Request.ended?]⟩
  | uncommitted hne cause => exact ⟨[_], _, rfl, rfl, by simp [Request.ended?]⟩
  | committed hne hcount => exact ⟨[_], _, rfl, rfl, by simp [Request.ended?]⟩

theorem Closed.failures_eq (h : Closed tx taken closing result) :
    failures closing = match result with
      | .ok _ => []
      | .error e => [e.cause] := by
  cases h <;> rfl

/-- The closing begins nothing and fetches nothing. -/
theorem Closed.ending (h : Closed tx taken closing result) {event : Program.Event Request}
    (hmem : event ∈ closing) :
    event.request ≠ .begin ∧ ∀ tx limit, event.request ≠ .fetch tx limit := by
  revert event
  cases h <;> simp

theorem Cycled.begun (h : Cycled batchSize events result) :
    ∃ answer rest, events = ⟨.begin, answer⟩ :: rest ∧
      ∀ event ∈ rest, event.request ≠ .begin := by
  cases h with
  | unbegun cause => exact ⟨_, [], rfl, by simp⟩
  | unfetched tx cause reply => exact ⟨_, _, rfl, by simp⟩
  | opened h hclose =>
    refine ⟨_, _, rfl, fun event hmem hbegin => ?_⟩
    rcases List.mem_append.mp hmem with hmem | hmem
    · rw [h.storage (by rw [hbegin]; rfl)] at hmem
      rw [hmem] at hbegin
      cases hbegin
    · exact (hclose.ending hmem).1 hbegin

/-- What the beginning answers is answered first of all. -/
theorem Cycled.eq_cons (h : Cycled batchSize events result) {answer : Except String Nat}
    (hmem : ⟨.begin, answer⟩ ∈ events) : ∃ rest, events = ⟨.begin, answer⟩ :: rest := by
  obtain ⟨answer', rest, rfl, hrest⟩ := h.begun
  rcases List.mem_cons.mp hmem with heq | hmem
  · exact ⟨rest, by rw [heq]⟩
  · exact absurd rfl (hrest _ hmem)

theorem Cycled.ended (h : Cycled batchSize events result) (hmem : ⟨.begin, .ok tx⟩ ∈ events) :
    ∃ before last, storageCalls events = before ++ [last] ∧ last.request.ended? = some tx ∧
      ∀ event ∈ before, event.request.ended? = none := by
  obtain ⟨rest, heq⟩ := h.eq_cons hmem
  cases h with
  | unbegun cause => cases heq
  | unfetched tx' cause reply =>
    cases heq
    exact ⟨[_, _], _, rfl, rfl, by simp [Request.ended?]⟩
  | @opened _ opening closing rows _ _ h hclose =>
    cases heq
    obtain ⟨before, last, hcalls, hlast, hbefore⟩ := hclose.ended
    refine ⟨⟨.begin, .ok tx⟩ :: ⟨.fetch tx batchSize, .ok rows⟩ :: before, last, ?_, hlast, ?_⟩
    · change _ :: storageCalls (opening ++ closing) = _
      rw [storageCalls_append, h.storageCalls_eq, hcalls]
      rfl
    · simpa [Request.ended?] using hbefore

theorem Cycled.handed {limit : Nat} (h : Cycled batchSize events result)
    (hmem : ⟨.fetch tx limit, .ok rows⟩ ∈ events) :
    limit = batchSize ∧ ∃ count ≤ rows.length, handedOver events = rows.take (count + 1) ∧
      accepted events = rows.take count ∧ refused events = rows[count]?.toList := by
  cases h with
  | unbegun cause => simp at hmem
  | unfetched tx' cause reply => simp at hmem
  | @opened tx' opening closing rows' taken _ h hclose =>
    rcases List.mem_append.mp (List.mem_of_ne_of_mem (by simp) hmem) with hmem | hmem
    · cases (h.storage rfl).mp hmem
      obtain ⟨count, hle, hover, htaken, hrefused⟩ := h.longest
      obtain ⟨hover', haccepted', hrefused'⟩ := hclose.quiet
      refine ⟨rfl, count, hle, ?_, ?_, ?_⟩
      · change handedOver (opening ++ closing) = _
        rw [handedOver_append, hover, hover', List.append_nil]
      · change accepted (opening ++ closing) = _
        rw [accepted_append, h.accepted_eq, haccepted', List.append_nil, htaken]
      · change refused (opening ++ closing) = _
        rw [refused_append, hrefused, hrefused', List.append_nil]
    · exact absurd rfl ((hclose.ending hmem).2 tx limit)

/-- The rows that are accepted in a cycle are those of its opening. -/
theorem Opened.accepted_cycle (h : Opened batchSize tx opening rows taken)
    (hclose : Closed tx taken closing result) :
    accepted (⟨.begin, .ok tx⟩ :: (opening ++ closing)) = taken := by
  change accepted (opening ++ closing) = taken
  rw [accepted_append, h.accepted_eq, hclose.quiet.2.1, List.append_nil]

theorem Cycled.commits {reply : Except String Unit} (h : Cycled batchSize events result)
    (hmem : ⟨.commit tx, reply⟩ ∈ events) :
    accepted events ≠ [] ∧ (∃ rows, ⟨.fetch tx batchSize, .ok rows⟩ ∈ events) ∧
    ∃ before after, events =
      before ++ ⟨.mark tx ((accepted events).map (·.id)), .ok ()⟩ :: ⟨.commit tx, reply⟩ ::
        after := by
  cases h with
  | unbegun cause => simp at hmem
  | unfetched tx' cause reply => simp at hmem
  | @opened tx' opening closing rows taken _ h hclose =>
    rw [h.accepted_cycle hclose]
    rcases List.mem_append.mp (List.mem_of_ne_of_mem (by simp) hmem) with hopen | hend
    · cases (h.storage rfl).mp hopen
    · have hfetch : ⟨.fetch tx' batchSize, .ok rows⟩ ∈ opening := (h.storage rfl).mpr rfl
      cases hclose with
      | fruitless => simp at hend
      | unmarked => simp at hend
      | uncommitted hne cause =>
        obtain ⟨rfl, rfl⟩ : tx = tx' ∧ reply = .error cause := by simpa using hend
        exact ⟨hne, ⟨rows, by simp [hfetch]⟩, _ :: opening, [], rfl⟩
      | committed hne =>
        obtain ⟨rfl, rfl⟩ : tx = tx' ∧ reply = .ok () := by simpa using hend
        exact ⟨hne, ⟨rows, by simp [hfetch]⟩, _ :: opening, _, rfl⟩

theorem Cycled.count_iff {count : Nat} (h : Cycled batchSize events result) (hpos : 0 < count) :
    result = .ok count ↔
      (∃ tx, ⟨.commit tx, .ok ()⟩ ∈ events) ∧ count = (accepted events).length := by
  cases h with
  | unbegun cause => simp
  | unfetched tx' cause reply => simp
  | @opened tx' opening closing rows taken _ h hclose =>
    have hopen : ∀ tx, ⟨.commit tx, .ok ()⟩ ∉ opening := fun tx hmem => by
      cases (h.storage rfl).mp hmem
    rw [h.accepted_cycle hclose]
    cases hclose with
    | fruitless => simp [hopen, (Nat.ne_of_gt hpos).symm]
    | unmarked => simp [hopen]
    | uncommitted => simp [hopen]
    | committed hne hcount => simp [hopen, hcount, eq_comm]

/-- A rollback is the last request, and may as well be answered otherwise. -/
theorem Cycled.rolledBack {reply : Except String Unit} (h : Cycled batchSize events result)
    (hmem : ⟨.rollback tx, reply⟩ ∈ events) :
    ∃ before, events = before ++ [⟨.rollback tx, reply⟩] ∧ ⟨.rollback tx, reply⟩ ∉ before ∧
      ∀ other, Cycled batchSize (before ++ [⟨.rollback tx, other⟩]) result := by
  cases h with
  | unbegun cause => simp at hmem
  | unfetched tx' cause reply' =>
    obtain ⟨rfl, rfl⟩ : tx = tx' ∧ reply = reply' := by simpa using hmem
    exact ⟨[_, _], rfl, by simp, .unfetched tx cause⟩
  | @opened tx' opening closing rows taken _ h hclose =>
    have hopen : ⟨.rollback tx, reply⟩ ∉ opening := fun hmem => by
      cases (h.storage rfl).mp hmem
    have hend := (List.mem_append.mp (List.mem_of_ne_of_mem (by simp) hmem)).resolve_left hopen
    cases hclose with
    | fruitless hnone reply' =>
      obtain ⟨rfl, rfl⟩ : tx = tx' ∧ reply = reply' := by simpa using hend
      exact ⟨_ :: opening, rfl, by simp [hopen], fun other => .opened h (.fruitless hnone other)⟩
    | unmarked hne cause reply' =>
      obtain ⟨rfl, rfl⟩ : tx = tx' ∧ reply = reply' := by simpa using hend
      refine ⟨⟨.begin, .ok tx⟩ :: (opening ++ [⟨.mark tx (taken.map (·.id)), .error cause⟩]),
        by simp, by simp [hopen], fun other => ?_⟩
      simpa using Cycled.opened h (.unmarked hne cause other)
    | uncommitted => simp at hend
    | committed => simp at hend

theorem Cycled.failures_eq (h : Cycled batchSize events result) :
    failures events = match result with
      | .ok _ => []
      | .error e => [e.cause] := by
  cases h with
  | unbegun cause => rfl
  | unfetched tx' cause reply => rfl
  | @opened _ opening closing _ _ _ h hclose =>
    change failures (opening ++ closing) = _
    rw [failures_append, h.failures_eq, hclose.failures_eq]
    cases result <;> rfl

theorem Cycled.transacted (h : Cycled batchSize events result) :
    Transacted batchSize events result where
  begun := h.begun
  unbegun cause hmem := by
    obtain ⟨rest, heq⟩ := h.eq_cons hmem
    cases h <;> cases heq
    rfl
  ended tx := h.ended
  handed tx limit rows := h.handed
  committed tx reply := h.commits
  error_iff e := by
    rw [h.failures_eq]
    cases result <;> grind [RelayError]
  ok_iff := by
    rw [h.failures_eq]
    cases result <;> simp
  count_iff count hpos := h.count_iff hpos
  rollback before tx reply after heq other := by
    have hmem : ⟨.rollback tx, reply⟩ ∈ events := by simp [heq]
    obtain ⟨before', heq', hnot, hother⟩ := h.rolledBack hmem
    obtain ⟨rfl, -, rfl⟩ := (List.append_cons_inj_of_notMem hnot List.not_mem_nil).mp
      (heq'.symm.trans heq)
    exact (hother other).told

end Cycled

/-- Every cycle treats its transaction so, whatever it has around it: `answer` answers each request
from a state of any kind, and may let any of them fail. -/
theorem poll_transacted {σ : Type} (batchSize : Nat)
    (answer : (r : Request) → σ → Requests.Answer r × σ) (s : σ) :
    Transacted batchSize ((poll batchSize).run (Program.note answer) (s, [])).2.2
      ((poll batchSize).run answer s).1 := by
  obtain ⟨events, hevents, htold⟩ := Program.told_run_note answer (poll batchSize) s []
  rw [hevents, List.nil_append]
  have hresult := congrArg Prod.fst (Program.run_note answer (poll batchSize) (s, []))
  exact hresult ▸ (Cycled.of_told htold).transacted

end Courier.Relay
