import Courier.Proofs.Delivery.Sequence
import Courier.Proofs.Outbox.Serial
import Courier.Proofs.Pipeline.Accounting

/-!
# The relay's part

With one relay nobody else has locks when a cycle fetches, so the cycle gets the lowest unpublished
rows, and it sends them in their order. Each row is thus sent behind all smaller ones (`InTurn`): these
are published, or the cycle has sent them already, or they come before it among the rows to send.
`Relayed` puts this together with what holds of the pipeline, and `Relayed.advanced` says that a cycle
keeps it.
-/

namespace Courier.Delivery

open Pipeline (Poll Consistent Accounted Logged Advanced moved)
open Relay (Stage)

variable {relay : Forwarder} {queue : String} {s s' : Pipeline.System} {stages : Nat → Stage}
  {o : Outbox} {op : Outbox.Operation} {i : Nat} {p p' : Poll} {polls : List Poll} {stage stage' : Stage}
  {ids ids' : List Int} {before : List Message}
  {rest : Program Pipeline.Request (Except RelayError Nat)}

/-! ## One relay -/

/-- The cycles are those of one relay, so one at most is at work. -/
structure OneRelay (relay : Forwarder) (polls : List Poll) : Prop where
  same : ∀ (i : Nat) (p : Poll), polls[i]? = some p → p.forwarder = relay ∧ p.broker = 0
  one : ∀ (i j : Nat) (p q : Poll), polls[i]? = some p → polls[j]? = some q → p.finished = false →
    q.finished = false → i = j

theorem OneRelay.set (h : OneRelay relay polls) (hp : polls[i]? = some p) (hwork : p.finished = false)
    (hf : p'.forwarder = p.forwarder) (hb : p'.broker = p.broker) :
    OneRelay relay (polls.set i p') := by
  -- a cycle at work was at work before
  have worked : ∀ (j : Nat) (q : Poll), (polls.set i p')[j]? = some q → q.finished = false →
      ∃ q', polls[j]? = some q' ∧ q'.finished = false := by
    intro j q hq hqwork
    rcases getElem?_set_cases hq with ⟨rfl, -⟩ | ⟨-, hq⟩
    · exact ⟨p, hp, hwork⟩
    · exact ⟨q, hq, hqwork⟩
  refine ⟨fun j q hq => ?_, fun j k q r hq hr hqwork hrwork => ?_⟩
  · rcases getElem?_set_cases hq with ⟨rfl, rfl⟩ | ⟨-, hq⟩
    · rw [hf, hb]
      exact h.same j p hp
    · exact h.same j q hq
  · obtain ⟨q', hq', hqwork'⟩ := worked j q hq hqwork
    obtain ⟨r', hr', hrwork'⟩ := worked k r hr hrwork
    exact h.one j k q' r' hq' hr' hqwork' hrwork'

/-- The relay starts its next cycle when the others have ended. -/
theorem OneRelay.append (h : OneRelay relay polls) (hall : polls.all (·.finished) = true)
    (hf : p'.forwarder = relay) (hb : p'.broker = 0) : OneRelay relay (polls ++ [p']) := by
  have ended : ∀ (j : Nat) (q : Poll), polls[j]? = some q → q.finished = false → False := by
    intro j q hq hwork
    rw [List.all_eq_true.mp hall q (List.mem_of_getElem? hq)] at hwork
    cases hwork
  refine ⟨fun j q hq => ?_, fun j k q r hq hr hqwork hrwork => ?_⟩
  · rcases getElem?_append_cases hq with hq | ⟨-, rfl⟩
    · exact h.same j q hq
    · exact ⟨hf, hb⟩
  · rcases getElem?_append_cases hq with hq | ⟨rfl, -⟩
    · exact (ended j q hq hqwork).elim
    · rcases getElem?_append_cases hr with hr | ⟨rfl, -⟩
      · exact (ended k r hr hrwork).elim
      · rfl

/-! ## Writers, locks and the queue -/

/-- Writers write one after another and lock nothing, and from the first cycle on all rows are sent to
the queue. -/
structure Orderly (relay : Forwarder) (queue : String) (s : Pipeline.System) : Prop where
  relays : OneRelay relay s.polls
  serial : s.outbox.Serial
  locks : ∀ tx t, s.outbox.transaction? tx = some t → ∀ id ∈ t.locked,
    ∃ (i : Nat) (p : Poll), s.polls[i]? = some p ∧ p.tx = some tx
  matched : s.polls ≠ [] → ∀ row ∈ s.outbox.rows ++ s.outbox.staged,
    (s.brokers 0).sendsTo queue (relay.publishing row) = true

/-- Something befalls the brokers. -/
theorem Orderly.keeps (h : Orderly relay queue s) {brokers : Nat → Memory}
    (hk : (s.brokers 0).Keeps (brokers 0)) : Orderly relay queue { s with brokers } :=
  { h with matched := fun hp row hrow => Memory.sendsTo_of_keeps hk (h.matched hp row hrow) }

/-- A cycle goes on. -/
theorem Orderly.set (h : Orderly relay queue s) (hp : s.polls[i]? = some p)
    (hwork : p.finished = false) (hf : p'.forwarder = p.forwarder) (hb : p'.broker = p.broker)
    (htx : ∀ tx, p.tx = some tx → p'.tx = some tx) (appended : List Pipeline.Appended) :
    Orderly relay queue { s with appended, polls := s.polls.set i p' } where
  relays := h.relays.set hp hwork hf hb
  serial := h.serial
  locks tx t ht id hid := by
    obtain ⟨j, q, hq, hqtx⟩ := h.locks tx t ht id hid
    by_cases hij : i = j
    · subst hij
      obtain rfl : p = q := Option.some.inj (hp.symm.trans hq)
      exact ⟨i, p', List.getElem?_set_self (List.getElem?_eq_some_iff.mp hp).1, htx tx hqtx⟩
    · exact ⟨j, q, by rw [List.getElem?_set_ne hij, hq], hqtx⟩
  matched hne := h.matched fun hnil => by simp [hnil] at hp

/-- An operation: rows are written by one transaction at a time, and are sent to the queue; and they
are locked for cycles only. -/
theorem Orderly.outbox (h : Orderly relay queue s) (wf : s.outbox.WellFormed)
    (halone : ∀ tx, op.transaction? = some tx → op.writes = true → s.outbox.alone tx = true)
    (hmatched : op.writes = true → s.polls ≠ [] →
      ∀ row ∈ (s.outbox.step op).rows ++ (s.outbox.step op).staged,
        (s.brokers 0).sendsTo queue (relay.publishing row) = true)
    (hfetch : ∀ tx limit, op = .fetch tx limit →
      ∃ (i : Nat) (p : Poll), s.polls[i]? = some p ∧ p.tx = some tx) :
    Orderly relay queue { s with outbox := s.outbox.step op } where
  relays := h.relays
  serial := h.serial.step wf halone
  locks tx t ht id hid := by
    obtain ⟨t', ht', hid | ⟨limit, e⟩⟩ := Outbox.mem_locked_step_cases ht hid
    · exact h.locks tx t' ht' id hid
    · exact hfetch tx limit e
  matched hne row hrow := by
    cases hw : op.writes with
    | true => exact hmatched hw hne row hrow
    | false =>
      obtain ⟨row₀, hrow₀, e⟩ := wf.mem_rows_staged_step hw hrow
      have hsends := h.matched hne row₀ hrow₀
      rcases e with rfl | rfl <;> exact hsends

/-! ## In turn -/

/-- While a cycle sends rows, what is smaller than one of them has been in the queue or is sent before
it. -/
def InTurn (o : Outbox) (ids : List Int) : Stage → Prop
  | .sending _ _ todo => Outbox.Ascending todo ∧ ∀ row ∈ todo, ∀ c, o.committed c → c < row.id →
      c ∈ ids ∨ ∃ r ∈ todo, r.id = c
  | _ => True

theorem InTurn.mono (h : InTurn o ids stage) (hsub : ∀ id ∈ ids, id ∈ ids') :
    InTurn o ids' stage := by
  cases stage with
  | sending tx accepted todo =>
    exact ⟨h.1, fun row hrow c hc hlt => (h.2 row hrow c hc hlt).imp_left (hsub c)⟩
  | _ => trivial

theorem InTurn.of_rows {o' : Outbox} (h : InTurn o ids stage) (hrows : o'.rows = o.rows) :
    InTurn o' ids stage := by
  cases stage with
  | sending tx accepted todo =>
    refine ⟨h.1, fun row hrow c hc hlt => h.2 row hrow c ?_ hlt⟩
    rwa [Outbox.committed, hrows] at hc
  | _ => trivial

/-- Nothing is committed below the rows that a cycle holds. -/
theorem InTurn.step (h : InTurn o ids stage) (wf : o.WellFormed) (hs : o.Serial)
    (hat : p.At o stage) : InTurn (o.step op) ids stage := by
  cases stage with
  | sending tx accepted todo =>
    obtain ⟨-, -, -, locked, -, hold⟩ := hat
    refine ⟨h.1, fun row hrow c hc hlt => h.2 row hrow c ?_ hlt⟩
    have hmem := (hold.unpublished row (List.mem_append_right _ hrow)).1
    exact hs.committed_below wf ⟨row, hmem, rfl⟩ hc hlt
  | _ => trivial

/-- What is smaller than the next row has been in the queue. -/
theorem InTurn.below {tx : TransactionId} {accepted todo : List OutboxEntry} {entry : OutboxEntry}
    (h : InTurn o ids (.sending tx accepted (entry :: todo))) {c : Int} (hc : o.committed c)
    (hlt : c < entry.id) : c ∈ ids := by
  rcases h.2 entry List.mem_cons_self c hc hlt with hmem | ⟨r, hr, rfl⟩
  · exact hmem
  · rcases List.mem_cons.mp hr with rfl | hr
    · exact absurd hlt (Int.lt_irrefl _)
    · have := (List.pairwise_cons.mp h.1).1 r hr
      omega

/-- The next row has got into the queue. -/
theorem InTurn.sent {tx : TransactionId} {accepted todo : List OutboxEntry} {entry : OutboxEntry}
    (h : InTurn o ids (.sending tx accepted (entry :: todo))) (hsub : ∀ id ∈ ids, id ∈ ids')
    (hentry : entry.id ∈ ids') : InTurn o ids' (.sending tx (accepted ++ [entry]) todo) := by
  refine ⟨(List.pairwise_cons.mp h.1).2, fun row hrow c hc hlt => ?_⟩
  rcases h.2 row (List.mem_cons_of_mem _ hrow) c hc hlt with hmem | ⟨r, hr, rfl⟩
  · exact .inl (hsub c hmem)
  · rcases List.mem_cons.mp hr with rfl | hr
    · exact .inl hentry
    · exact .inr ⟨r, hr, rfl⟩

/-- A cycle that finds nothing locked has fetched the lowest unpublished rows. -/
theorem inTurn_available (wf : o.WellFormed) (hlocked : ∀ id, id ∉ o.locked)
    (hpublished : ∀ row ∈ o.rows, row.published = true → row.id ∈ ids) (tx : TransactionId)
    (limit : Nat) : InTurn o ids (.sending tx [] (o.available limit)) := by
  have hlowest := Outbox.lowest_available wf.ascending limit
  refine ⟨hlowest.ascending, fun row hrow c hc hlt => ?_⟩
  obtain ⟨other, hother, rfl⟩ := hc
  cases hpub : other.published with
  | true => exact .inl (hpublished other hother hpub)
  | false =>
    refine .inr ⟨other, Classical.byContradiction fun hout => ?_, rfl⟩
    have := (hlowest.rest other ⟨hother, hpub, hlocked _⟩ hout).2 row hrow
    omega

/-! ## All of it -/

/-- What the relay keeps of the rows and of the messages in its queue. -/
structure Relayed (relay : Forwarder) (queue : String) (s : Pipeline.System) (stages : Nat → Stage)
    (trail : List Message) : Prop where
  orderly : Orderly relay queue s
  sequenced : Sequenced s trail
  inTurn : ∀ (i : Nat) (p : Poll), s.polls[i]? = some p →
    InTurn s.outbox (rowsOf s.appended trail) (stages i)

variable {trail : List Message}

theorem inTurn_moved (hothers : ∀ (j : Nat) (q : Poll), s.polls[j]? = some q → InTurn o ids (stages j))
    (h : InTurn o ids stage) (j : Nat) (q : Poll) (hq : (s.polls.set i p')[j]? = some q) :
    InTurn o ids (moved stages i stage j) := by
  rcases getElem?_set_cases hq with ⟨rfl, rfl⟩ | ⟨hne, hq⟩
  · simpa only [moved, if_true] using h
  · simpa only [moved, if_neg hne] using hothers j q hq

/-- A cycle does an operation on its own transaction. -/
theorem Relayed.own (h : Relayed relay queue s stages trail) (hc : Consistent s stages) (l : Logged s)
    (hp : s.polls[i]? = some p) (hwork : p.finished = false) (hw : op.writes = false)
    (hfetch : ∀ tx limit, op = .fetch tx limit → p.tx = some tx) (hf : p'.forwarder = p.forwarder)
    (hb : p'.broker = p.broker) (htx : ∀ tx, p.tx = some tx → p'.tx = some tx)
    (hin : InTurn (s.outbox.step op) (rowsOf s.appended trail) stage) :
    Relayed relay queue { s with outbox := s.outbox.step op, polls := s.polls.set i p' }
      (moved stages i stage) trail where
  orderly :=
    (h.orderly.outbox hc.wellFormed (fun _ _ e => absurd (hw.symm.trans e) Bool.false_ne_true)
      (fun e => absurd (hw.symm.trans e) Bool.false_ne_true)
      fun tx limit e => ⟨i, p, hp, hfetch tx limit e⟩).set hp hwork hf hb htx s.appended
  sequenced := h.sequenced.outbox l hc.wellFormed h.orderly.serial rfl rfl rfl
  inTurn := inTurn_moved (fun j q hq =>
    (h.inTurn j q hq).step hc.wellFormed h.orderly.serial (hc.tracks j q hq).at_stage) hin

/-- A cycle goes on, and nothing gets into the queue. -/
theorem Relayed.aside (h : Relayed relay queue s stages (before ++ (s.brokers 0).ready queue))
    (hp : s.polls[i]? = some p) (hwork : p.finished = false) (hf : p'.forwarder = p.forwarder)
    (hb : p'.broker = p.broker) (htx : p'.tx = p.tx) {brokers : Nat → Memory}
    (hk : (s.brokers 0).Keeps (brokers 0))
    (hready : (brokers 0).ready queue = (s.brokers 0).ready queue)
    (hin : InTurn s.outbox (rowsOf s.appended (before ++ (s.brokers 0).ready queue)) stage) :
    Relayed relay queue { s with brokers, polls := s.polls.set i p' } (moved stages i stage)
      (before ++ (brokers 0).ready queue) := by
  rw [hready]
  exact ⟨(h.orderly.keeps hk).set hp hwork hf hb (fun _ e => htx.trans e) s.appended,
    h.sequenced.aside rfl rfl hk.lastMessageId, inTurn_moved h.inTurn hin⟩

/-- The broker accepts the next row of a cycle. -/
theorem Relayed.accept (h : Relayed relay queue s stages (before ++ (s.brokers 0).ready queue))
    (hp : s.polls[i]? = some p) (hwork : p.finished = false) (hf : p'.forwarder = p.forwarder)
    (hb : p'.broker = p.broker) (htx : p'.tx = p.tx) {tx : TransactionId}
    {accepted todo : List OutboxEntry} {entry : OutboxEntry}
    (hstage : stages i = .sending tx accepted (entry :: todo)) {a : Pipeline.Appended}
    (ha : a.entry = entry) (hnumber : a.number = (s.brokers 0).lastMessageId + 1)
    {brokers : Nat → Memory} (hk : (s.brokers 0).Keeps (brokers 0))
    (hl : (brokers 0).lastMessageId = (s.brokers 0).lastMessageId + 1) {count : Nat}
    (hready : (brokers 0).ready queue =
      (s.brokers 0).ready queue ++ List.replicate (count + 1) ((s.brokers 0).copy a.publishing)) :
    Relayed relay queue
      { s with brokers, appended := s.appended ++ [a], polls := s.polls.set i p' }
      (moved stages i (.sending tx (accepted ++ [entry]) todo))
      (before ++ (brokers 0).ready queue) := by
  rw [hready, ← List.append_assoc]
  have hin : InTurn s.outbox _ (.sending tx accepted (entry :: todo)) := hstage ▸ h.inTurn i p hp
  have hsequenced : Sequenced { s with brokers, appended := s.appended ++ [a], polls := s.polls.set i p' }
      (before ++ (s.brokers 0).ready queue ++
        List.replicate (count + 1) ((s.brokers 0).copy a.publishing)) :=
    h.sequenced.accept (fun c hc hlt => hin.below hc (ha ▸ hlt)) hnumber rfl rfl hl
  have hsub : ∀ id ∈ rowsOf s.appended (before ++ (s.brokers 0).ready queue),
      id ∈ rowsOf (s.appended ++ [a]) (before ++ (s.brokers 0).ready queue ++
        List.replicate (count + 1) ((s.brokers 0).copy a.publishing)) := by
    intro id hid
    rw [rowsOf_append_messages, h.sequenced.known.rowsOf_append]
    exact List.mem_append_left _ hid
  refine ⟨(h.orderly.keeps hk).set hp hwork hf hb (fun _ e => htx.trans e) _, hsequenced, ?_⟩
  refine inTurn_moved (fun j q hq => (h.inTurn j q hq).mono hsub) (hin.sent hsub ?_)
  rw [← ha]
  exact hsequenced.covered a (List.mem_append_right _ (List.mem_singleton.mpr rfl))

/-! ## A cycle goes on -/

theorem keeps_setBroker (s : Pipeline.System) {broker : Nat} {m : Memory}
    (hk : (s.brokers broker).Keeps m) : (s.brokers 0).Keeps ((s.setBroker broker m).brokers 0) := by
  simp only [Pipeline.System.setBroker]
  split
  · rename_i h
    rwa [h]
  · exact .refl _

/-- The broker keeps what it has. -/
theorem keeps_advanced (ha : Advanced s i p rest stage stage' s') :
    (s.brokers 0).Keeps (s'.brokers 0) := by
  cases ha with
  | accept => exact keeps_setBroker s (Memory.keeps_accept _ _ _)
  | refuse => exact keeps_setBroker s (.of_eq rfl rfl (fun _ h => h) rfl rfl (Nat.le_refl _))
  | talk hm => exact keeps_setBroker s hm.keeps
  | _ => exact .refl _

/-- A cycle at work has not ended. -/
theorem finished_of_advanced (hc : Consistent s stages) (hp : s.polls[i]? = some p)
    (hstage : stages i = stage) (ha : Advanced s i p rest stage stage' s') : p.finished = false := by
  refine Bool.eq_false_iff.mpr fun hf => ?_
  have hend := (hc.tracks i p hp).finished_iff.mp hf
  rw [hstage] at hend
  subst hend
  cases ha

/-- When a cycle fetches, nothing is locked. -/
theorem Orderly.not_mem_locked (h : Orderly relay queue s) (hc : Consistent s stages)
    (hp : s.polls[i]? = some p) (hwork : p.finished = false) {tx : TransactionId}
    (hat : p.At s.outbox (.begun tx)) (id : Int) : id ∉ s.outbox.locked := by
  intro hid
  obtain ⟨htx, -, -, hopen⟩ := hat
  obtain ⟨other, t, ht, hid⟩ := hc.wellFormed.locks.mem_locked.mp hid
  obtain ⟨j, q, hq, hqtx⟩ := h.locks other t ht id hid
  have hqwork : q.finished = false := by
    refine Bool.eq_false_iff.mpr fun hf => ?_
    have hend := (hc.tracks j q hq).at_stage
    rw [(hc.tracks j q hq).finished_iff.mp hf] at hend
    rw [hend other hqtx] at ht
    cases ht
  -- so the lock is one of this cycle, which has none yet
  obtain rfl := h.relays.one i j p q hp hq hwork hqwork
  obtain rfl : p = q := Option.some.inj (hp.symm.trans hq)
  obtain rfl : tx = other := Option.some.inj (htx.symm.trans hqtx)
  obtain rfl : {} = t := Option.some.inj (hopen.symm.trans ht)
  cases hid

/-- What the broker accepts for a row gets into the queue. -/
theorem Orderly.ready_accept (h : Orderly relay queue s) (hp : s.polls[i]? = some p)
    {entry : OutboxEntry} (hentry : entry ∈ s.outbox.rows) {targets : List String}
    (hroute : (s.brokers 0).route (relay.publishing entry).destination = .ok targets) :
    ∃ count, ((s.brokers 0).accept (relay.publishing entry) targets).ready queue =
      (s.brokers 0).ready queue ++
        List.replicate (count + 1) ((s.brokers 0).copy (relay.publishing entry)) := by
  have hne : s.polls ≠ [] := fun hnil => by simp [hnil] at hp
  have hsends := h.matched hne entry (List.mem_append_left _ hentry)
  exact Memory.ready_accept_of_sendsTo hsends hroute

/-- Published rows have been in the queue. -/
theorem Sequenced.mem_of_published (h : Sequenced s trail) (hc : Consistent s stages)
    (acc : Accounted s) (l : Logged s) {row : OutboxEntry} (hrow : row ∈ s.outbox.rows)
    (hpub : row.published = true) : row.id ∈ rowsOf s.appended trail := by
  obtain ⟨a, ha, -, e⟩ := l.arrived acc hc hrow hpub
  have hid : a.entry.id = row.id := by rw [e]
  exact hid ▸ h.covered a ha

theorem Relayed.advanced (h : Relayed relay queue s stages (before ++ (s.brokers 0).ready queue))
    (hc : Consistent s stages) (acc : Accounted s) (l : Logged s) (hp : s.polls[i]? = some p)
    (hstage : stages i = stage) (ha : Advanced s i p rest stage stage' s') :
    Relayed relay queue s' (moved stages i stage') (before ++ (s'.brokers 0).ready queue) := by
  have hwork := finished_of_advanced hc hp hstage ha
  have hk := keeps_advanced ha
  have hat := (hc.tracks i p hp).at_stage
  rw [hstage] at hat
  obtain ⟨hrelay, hbroker⟩ := h.orderly.relays.same i p hp
  have hin : InTurn s.outbox _ stage := hstage ▸ h.inTurn i p hp
  have hset : ∀ m, (s.setBroker p.broker m).brokers 0 = m := fun m => if_pos hbroker.symm
  cases ha with
  | begin =>
    exact h.own hc l hp hwork rfl (by simp) rfl rfl (fun tx e => by simp [hat.1] at e) trivial
  | @fetch tx limit =>
    have hfetched := inTurn_available hc.wellFormed (h.orderly.not_mem_locked hc hp hwork hat)
      (fun row => h.sequenced.mem_of_published hc acc l) tx limit
    exact h.own hc l hp hwork rfl (by simpa using hat.1) rfl rfl (fun _ e => e)
      (hfetched.of_rows (Outbox.rows_step (by simp)))
  | @accept tx accepted todo entry targets hroute =>
    obtain ⟨-, -, -, locked, -, hold⟩ := hat
    have hentry := (hold.unpublished entry (by simp)).1
    have haccept := hset ((s.brokers p.broker).accept (p.forwarder.publishing entry) targets)
    rw [hrelay, hbroker] at hroute
    obtain ⟨count, hready⟩ := h.orderly.ready_accept hp hentry hroute
    have hready' : ((s.setBroker p.broker ((s.brokers p.broker).accept
        (p.forwarder.publishing entry) targets)).brokers 0).ready queue =
        (s.brokers 0).ready queue ++
          List.replicate (count + 1) ((s.brokers 0).copy (p.forwarder.publishing entry)) := by
      rw [haccept, hbroker, hrelay]
      exact hready
    refine h.accept hp hwork ?_ ?_ ?_ hstage ?_ ?_ hk ?_ hready'
    · rfl
    · rfl
    · rfl
    · rfl
    · rw [hbroker]
    · rw [haccept, hbroker]
      exact Memory.lastMessageId_accept _ _ targets
  | refuse n =>
    refine h.aside hp hwork ?_ ?_ ?_ hk ?_ ⟨.nil, by simp⟩
    · rfl
    · rfl
    · rfl
    · rw [hset, hbroker]
      rfl
  | talk hm =>
    rw [hbroker] at hm
    refine h.aside hp hwork ?_ ?_ ?_ hk ?_ hin
    · rfl
    · rfl
    · rfl
    · rw [hset]
      exact hm.ready queue
  | mark => exact h.own hc l hp hwork rfl (by simp) rfl rfl (fun _ e => e) trivial
  | commit => exact h.own hc l hp hwork rfl (by simp) rfl rfl (fun _ e => e) trivial
  | commitFailing => exact h.own hc l hp hwork rfl (by simp) rfl rfl (fun _ e => e) trivial
  | rollback => exact h.own hc l hp hwork rfl (by simp) rfl rfl (fun _ e => e) trivial

/-! ## Other events -/

/-- A writer does an operation. -/
theorem Relayed.write (h : Relayed relay queue s stages trail) (hc : Consistent s stages) (l : Logged s)
    (halone : ∀ tx, op.transaction? = some tx → op.writes = true → s.outbox.alone tx = true)
    (hmatched : op.writes = true → s.polls ≠ [] →
      ∀ row ∈ (s.outbox.step op).rows ++ (s.outbox.step op).staged,
        (s.brokers 0).sendsTo queue (relay.publishing row) = true)
    (hfetch : ∀ tx limit, op ≠ .fetch tx limit) : Relayed relay queue (s.write op) stages trail := by
  unfold Pipeline.System.write
  split
  · have ho := h.orderly.outbox hc.wellFormed halone hmatched fun tx limit e =>
      absurd e (hfetch tx limit)
    refine ⟨⟨ho.relays, ho.serial, ho.locks, ho.matched⟩,
      h.sequenced.outbox l hc.wellFormed h.orderly.serial rfl rfl rfl, fun i p hp => ?_⟩
    exact (h.inTurn i p hp).step hc.wellFormed h.orderly.serial (hc.tracks i p hp).at_stage
  · exact h

/-- The relay starts a cycle. -/
theorem Relayed.start (h : Relayed relay queue s stages trail)
    (hended : s.polls.all (·.finished) = true)
    (hmatched : ∀ row ∈ s.outbox.rows ++ s.outbox.staged,
      (s.brokers 0).sendsTo queue (relay.publishing row) = true)
    (cancel : TokenId) (batchSize : Nat) :
    Relayed relay queue (s.step (.poll relay 0 cancel batchSize))
      (moved stages s.polls.length .fresh) trail where
  orderly :=
    { relays := h.orderly.relays.append hended rfl rfl
      serial := h.orderly.serial
      locks := fun tx t ht id hid => by
        obtain ⟨i, p, hp, htx⟩ := h.orderly.locks tx t ht id hid
        refine ⟨i, p, ?_, htx⟩
        rw [Pipeline.System.step, List.getElem?_append_left (List.getElem?_eq_some_iff.mp hp).1, hp]
      matched := fun _ => hmatched }
  sequenced := h.sequenced.aside rfl rfl (Nat.le_refl _)
  inTurn i p hp := by
    rcases getElem?_append_cases hp with hp | ⟨rfl, -⟩
    · have hlt := (List.getElem?_eq_some_iff.mp hp).1
      simp only [moved, if_neg (Nat.ne_of_lt hlt)]
      exact h.inTurn i p hp
    · simp only [moved, if_true]
      trivial

/-- Something befalls the brokers. -/
theorem Relayed.keeps (h : Relayed relay queue s stages trail) {brokers : Nat → Memory}
    (hk : (s.brokers 0).Keeps (brokers 0)) : Relayed relay queue { s with brokers } stages trail :=
  ⟨h.orderly.keeps hk, h.sequenced.aside rfl rfl hk.lastMessageId, h.inTurn⟩

/-- Messages that were handled come back. -/
theorem Relayed.repeats {handled again front back : List Message}
    (h : Relayed relay queue s stages (handled ++ again)) (hr : Repeats handled (front ++ back)) :
    Relayed relay queue s stages (handled ++ front ++ again ++ back) := by
  refine ⟨h.orderly, h.sequenced.repeats hr, fun i p hp => (h.inTurn i p hp).mono fun id hid => ?_⟩
  simp only [rowsOf_append_messages, List.mem_append] at hid ⊢
  rcases hid with hid | hid
  · exact .inl (.inl (.inl hid))
  · exact .inl (.inr hid)

theorem relayed_start (relay : Forwarder) (queue : String) (stages : Nat → Stage) :
    Relayed relay queue { brokers := fun _ => {} } stages [] where
  orderly :=
    { relays := ⟨fun i p h => by simp at h, fun i j p q h => by simp at h⟩
      serial := Outbox.serial_empty
      locks := fun tx t h => by simp [Outbox.transaction?] at h
      matched := fun h => absurd rfl h }
  sequenced :=
    { numbered := fun a h => by cases h
      known := fun message h => by cases h
      covered := fun a h => by cases h
      inOrder := inOrder_nil }
  inTurn i p h := by simp at h

end Courier.Delivery
