import Courier.Proofs.Delivery.Relaying
import Courier.Proofs.Handover.System
import Courier.Proofs.Relay.Protocol

/-!
# In which order rows are handed over

A cycle finds nothing locked, so it fetches the lowest unpublished rows, and it hands them over in
order up to the first that is refused. What is published has been taken. So when a row is handed over,
everything below it that was committed when the cycle fetched has been taken, and rows are handed over
in order as far as they could be seen (`orderly_handed`).

Ids are given out before rows are committed. A row that is committed late is therefore handed over
behind greater ones: of all rows the order does not hold (`not_inOrder`).

`Good` is the invariant. It has the stage of the cycle beside the system: what the cycle's transaction
is at each stage, and that all others are the writers', which neither lock nor mark.
-/

namespace Courier.Handover

open Relay (Stage)
open Delivery (InTurn)

variable {s : System} {o : Outbox} {op : Outbox.Operation} {stage stage' : Stage} {tx : TransactionId}
  {ids ids' : List Int}

/-! ## Where the cycle stands -/

/-- The transaction of the cycle, as long as it is open. -/
def transactionOf : Stage → Option TransactionId
  | .begun tx => some tx
  | .sending tx _ _ => some tx
  | .marked tx _ => some tx
  | _ => none

/-- The transaction of the cycle at each stage; the rows that were accepted are among these. -/
def At (o : Outbox) (ids : List Int) : Stage → Prop
  | .begun tx => o.transaction? tx = some {}
  | .sending tx accepted todo =>
    (∀ row ∈ accepted, row.id ∈ ids) ∧
      ∃ locked, o.transaction? tx = some { locked } ∧ ∀ row ∈ accepted ++ todo, row.id ∈ locked
  | .marked tx accepted =>
    (∀ row ∈ accepted, row.id ∈ ids) ∧
      ∃ locked, o.transaction? tx = some { marks := accepted.map (·.id), locked }
  | _ => True

theorem At.isOpen (h : At o ids stage) (htx : transactionOf stage = some tx) :
    ∃ t, o.transaction? tx = some t := by
  cases stage with
  | fresh => cases htx
  | ended => cases htx
  | begun => cases htx; exact ⟨_, h⟩
  | sending => cases htx; obtain ⟨-, locked, hopen, -⟩ := h; exact ⟨_, hopen⟩
  | marked => cases htx; obtain ⟨-, locked, hopen⟩ := h; exact ⟨_, hopen⟩

/-- An operation on another transaction. -/
theorem At.step (h : At o ids stage)
    (hop : ∀ tx, transactionOf stage = some tx → op.transaction? ≠ some tx) :
    At (o.step op) ids stage := by
  cases stage with
  | fresh => trivial
  | ended => trivial
  | begun tx => exact Outbox.transaction?_step h (hop tx rfl)
  | sending tx accepted todo =>
    obtain ⟨htaken, locked, hopen, hmem⟩ := h
    exact ⟨htaken, locked, Outbox.transaction?_step hopen (hop tx rfl), hmem⟩
  | marked tx accepted =>
    obtain ⟨htaken, locked, hopen⟩ := h
    exact ⟨htaken, locked, Outbox.transaction?_step hopen (hop tx rfl)⟩

/-! ## The invariant -/

/-- What is left of a cycle keeps to the protocol from this stage to its end. -/
abbrev KeepsTo (rest : Relay.Action (Except RelayError Nat)) (stage : Stage) : Prop :=
  rest.Obeys Relay.Moves (fun _ stage => stage = .ended) stage

/-- A writer's transaction. -/
structure Writes (writers : List TransactionId) (tx : TransactionId) (t : OutboxTransaction) :
    Prop where
  mem : tx ∈ writers
  locked : t.locked = []
  marks : t.marks = []

structure Good (s : System) (stage : Stage) : Prop where
  wellFormed : s.outbox.WellFormed
  careful : s.outbox.Careful
  at_stage : At s.outbox s.taken stage
  obeys : KeepsTo s.cycle stage
  writers_lt : ∀ tx ∈ s.writers, tx < s.outbox.transactions.length
  own : ∀ tx ∈ s.writers, transactionOf stage ≠ some tx
  others : ∀ tx t, s.outbox.transaction? tx = some t → transactionOf stage ≠ some tx →
    Writes s.writers tx t
  published : ∀ id, s.outbox.isPublished id = true → id ∈ s.taken
  /-- What is below a row that is still to be sent, of those that were committed when it was fetched,
  has been taken or is sent before it. -/
  inTurn : InTurn { rows := s.fetched } s.taken stage
  withoutGaps : WithoutGaps s.handed

theorem good_start : Good {} .ended where
  wellFormed := Outbox.wellFormed_empty
  careful := Outbox.careful_empty
  at_stage := trivial
  obeys := rfl
  writers_lt tx h := by cases h
  own tx h := by cases h
  others tx t h := by simp [Outbox.transaction?] at h
  published id h := by cases h
  inTurn := trivial
  withoutGaps j h hj := by cases hj

/-! ## Writers -/

/-- An operation of a writer. -/
theorem Good.written (h : Good s stage) {writers : List TransactionId}
    (hop : ∀ tx, op.transaction? = some tx → tx ∈ s.writers) (hfetch : ∀ tx n, op ≠ .fetch tx n)
    (hmark : ∀ tx ids, op ≠ .mark tx ids) (hsub : ∀ tx ∈ s.writers, tx ∈ writers)
    (hbegin : op = .begin → s.outbox.transactions.length ∈ writers)
    (hlt : ∀ tx ∈ writers, tx < (s.outbox.step op).transactions.length)
    (hown : ∀ tx ∈ writers, transactionOf stage ≠ some tx) :
    Good { s with outbox := s.outbox.step op, writers } stage := by
  refine { h with
    wellFormed := h.wellFormed.step op
    careful := h.careful.step_of_ne hmark
    at_stage := h.at_stage.step fun tx htx e => h.own tx (hop tx e) htx
    writers_lt := hlt
    own := hown
    others := fun tx t ht hne => ?_
    published := fun id hpub => ?_ }
  · have kept : ∀ {t}, s.outbox.transaction? tx = some t → Writes writers tx t := fun ht' =>
      { h.others tx _ ht' hne with mem := hsub tx (h.others tx _ ht' hne).mem }
    cases Outbox.became ht with
    | begun hb htx => exact ⟨htx ▸ hbegin hb, rfl, rfl⟩
    | same h' => exact kept h'
    | staged h' => exact ⟨(kept h').mem, (kept h').locked, (kept h').marks⟩
    | locked _ hop' => exact absurd hop' (hfetch tx _)
    | marked _ hop' => exact absurd hop' (hmark tx _)
  · refine h.published id ?_
    rw [← Outbox.isPublished_step h.wellFormed h.careful fun tx t e ht => ?_]
    · exact hpub
    · have hw := hop tx (e ▸ rfl)
      exact (h.others tx t ht (h.own tx hw)).marks

/-- A writer begins. -/
theorem Good.write_begin (h : Good s stage) : Good (s.write .begin) stage := by
  have hlen : (s.outbox.step .begin).transactions.length = s.outbox.transactions.length + 1 := by
    simp [Outbox.step, Outbox.begin]
  refine h.written (fun tx e => by cases e) (by simp) (by simp)
    (fun tx htx => List.mem_append_left _ htx)
    (fun _ => List.mem_append_right _ (List.mem_singleton.mpr rfl))
    (fun tx htx => ?_) fun tx htx => ?_
  · rw [hlen]
    rcases List.mem_append.mp htx with htx | htx
    · exact Nat.lt_succ_of_lt (h.writers_lt tx htx)
    · rw [List.mem_singleton.mp htx]
      exact Nat.lt_succ_self _
  · rcases List.mem_append.mp htx with htx | htx
    · exact h.own tx htx
    · -- the transaction of the cycle was open before
      intro hcycle
      obtain ⟨t, hopen⟩ := h.at_stage.isOpen hcycle
      rw [List.mem_singleton.mp htx] at hopen
      exact Nat.lt_irrefl _ (Outbox.lt_of_transaction? hopen)

/-- A writer does something else than begin. -/
theorem Good.write_step (h : Good s stage) (hop : ∀ tx, op.transaction? = some tx → tx ∈ s.writers)
    (hbegin : op ≠ .begin) (hfetch : ∀ tx n, op ≠ .fetch tx n) (hmark : ∀ tx ids, op ≠ .mark tx ids) :
    Good { s with outbox := s.outbox.step op } stage :=
  h.written hop hfetch hmark (fun _ htx => htx) (fun e => absurd e hbegin)
    (fun tx htx => Nat.lt_of_lt_of_le (h.writers_lt tx htx) (s.outbox.length_transactions_step op))
    h.own

theorem Good.write (h : Good s stage) (op : Outbox.Operation) : Good (s.write op) stage := by
  cases op with
  | begin => exact h.write_begin
  | failNextCommits count => exact h.write_step (fun tx e => by cases e) (by simp) (by simp) (by simp)
  | fetch => exact h
  | mark => exact h
  | _ =>
    unfold System.write
    split
    · rename_i hmay
      refine h.write_step (fun tx e => ?_) (by simp) (by simp) (by simp)
      simp only [System.mayWrite, e, Option.any_some, List.contains_iff_mem] at hmay
      exact hmay
    · exact h

/-! ## The cycle -/

theorem Good.poll (h : Good s stage) (batchSize : Nat) : ∃ stage, Good (s.poll batchSize) stage := by
  unfold System.poll
  split
  · rename_i result hcycle
    have hended : stage = .ended := by
      have := h.obeys
      rwa [hcycle] at this
    subst hended
    exact ⟨.fresh, { h with
      at_stage := trivial
      obeys := Relay.poll_obeys batchSize
      own := fun tx _ e => by cases e
      others := fun tx t ht _ => h.others tx t ht (by simp [transactionOf])
      inTurn := trivial }⟩
  · exact ⟨stage, h⟩

variable {rest : Relay.Action (Except RelayError Nat)}

/-- The cycle does an operation on its own transaction, which it keeps or ends. -/
theorem Good.operated (h : Good s stage) (hop : op.transaction? = some tx)
    (hstage : transactionOf stage = some tx)
    (hstage' : transactionOf stage' = some tx ∨
      transactionOf stage' = none ∧ (s.outbox.step op).transaction? tx = none)
    (hat : At (s.outbox.step op) s.taken stage') (hcareful : (s.outbox.step op).Careful)
    (hpub : ∀ id, (s.outbox.step op).isPublished id = true → id ∈ s.taken)
    {fetched : List OutboxEntry} (hturn : InTurn { rows := fetched } s.taken stage')
    (hobeys : KeepsTo rest stage') :
    Good { s with outbox := s.outbox.step op, fetched, cycle := rest } stage' where
  wellFormed := h.wellFormed.step op
  careful := hcareful
  at_stage := hat
  obeys := hobeys
  writers_lt tx' htx' :=
    Nat.lt_of_lt_of_le (h.writers_lt tx' htx') (s.outbox.length_transactions_step op)
  own tx' htx' e := by
    have hne := h.own tx' htx'
    rcases hstage' with hkeep | ⟨hend, -⟩
    · exact hne (hstage.trans (hkeep.symm.trans e))
    · rw [hend] at e
      cases e
  others tx' t ht hne := by
    by_cases htx : tx' = tx
    · subst htx
      rcases hstage' with hkeep | ⟨-, hnone⟩
      · exact absurd hkeep hne
      · have ht' : (s.outbox.step op).transaction? tx' = some t := ht
        rw [hnone] at ht'
        cases ht'
    · refine h.others tx' t (Outbox.transaction?_of_step hop htx ht) fun e => ?_
      exact htx (Option.some.inj (e.symm.trans hstage))
  published := hpub
  inTurn := hturn
  withoutGaps := h.withoutGaps

/-- What is no commit publishes nothing. -/
theorem Good.published_step (h : Good s stage) (hop : ∀ tx, op ≠ .commit tx) (id : Int)
    (hpub : (s.outbox.step op).isPublished id = true) : id ∈ s.taken := by
  refine h.published id ?_
  rwa [Outbox.isPublished, Outbox.rows_step hop] at hpub

/-- The cycle begins its transaction. -/
theorem Good.begin (h : Good s .fresh)
    (hobeys : KeepsTo rest (.begun s.outbox.transactions.length)) :
    Good { s with outbox := s.outbox.step .begin, cycle := rest }
      (.begun s.outbox.transactions.length) where
  wellFormed := h.wellFormed.step .begin
  careful := h.careful.step_of_ne fun _ _ (e : Outbox.Operation.begin = _) => by cases e
  at_stage := s.outbox.transaction?_begin
  obeys := hobeys
  writers_lt tx htx :=
    Nat.lt_of_lt_of_le (h.writers_lt tx htx) (s.outbox.length_transactions_step .begin)
  own tx htx e := by
    have := h.writers_lt tx htx
    rw [← Option.some.inj e] at this
    exact Nat.lt_irrefl _ this
  others tx t ht hne := by
    cases Outbox.became ht with
    | begun _ htx => exact absurd (congrArg some htx.symm) hne
    | same h' => exact h.others tx t h' (by simp [transactionOf])
    | staged _ hop => cases hop.1
    | locked _ hop => cases hop
    | marked _ hop => cases hop
  published := h.published_step (by simp)
  inTurn := trivial
  withoutGaps := h.withoutGaps

/-- Before the cycle fetches nothing is locked. -/
theorem Good.unlocked (h : Good s (.begun tx)) (id : Int) : id ∉ s.outbox.locked := by
  intro hid
  obtain ⟨tx', t, ht, hmem⟩ := h.wellFormed.locks.mem_locked.mp hid
  by_cases htx : tx' = tx
  · subst htx
    obtain rfl := Option.some.inj (h.at_stage.symm.trans ht)
    cases hmem
  · rw [(h.others tx' t ht fun e => htx (Option.some.inj e).symm).locked] at hmem
    cases hmem

theorem Good.fetch (h : Good s (.begun tx)) (limit : Nat)
    (hobeys : KeepsTo rest (.sending tx [] (s.outbox.available limit))) :
    Good { s with
        outbox := s.outbox.step (.fetch tx limit), fetched := s.outbox.rows, cycle := rest }
      (.sending tx [] (s.outbox.available limit)) := by
  have hpublished : ∀ row ∈ s.outbox.rows, row.published = true → row.id ∈ s.taken :=
    fun row hrow hpub => h.published row.id (Outbox.isPublished_iff.mpr ⟨row, hrow, rfl, hpub⟩)
  have hin := Delivery.inTurn_available h.wellFormed h.unlocked hpublished tx limit
  have hat : At (s.outbox.step (.fetch tx limit)) s.taken
      (.sending tx [] (s.outbox.available limit)) :=
    ⟨by simp, _, Outbox.transaction?_fetch h.at_stage limit,
      fun row hrow => List.mem_map_of_mem hrow⟩
  exact h.operated rfl rfl (.inl rfl) hat (h.careful.step_of_ne (by simp))
    (h.published_step (by simp)) (hin.of_rows rfl) hobeys

theorem Good.mark {accepted todo : List OutboxEntry} (h : Good s (.sending tx accepted todo))
    (hobeys : KeepsTo rest (.marked tx accepted)) :
    Good { s with outbox := s.outbox.step (.mark tx (accepted.map (·.id))), cycle := rest }
      (.marked tx accepted) := by
  obtain ⟨htaken, locked, hopen, hmem⟩ := h.at_stage
  have hat : At (s.outbox.step (.mark tx (accepted.map (·.id)))) s.taken (.marked tx accepted) :=
    ⟨htaken, locked, Outbox.transaction?_mark hopen _⟩
  refine h.operated rfl rfl (.inl rfl) hat (h.careful.step fun tx' ids t e ht id hid => ?_)
    (h.published_step (by simp)) trivial hobeys
  cases e
  obtain rfl := Option.some.inj (hopen.symm.trans ht)
  obtain ⟨row, hrow, rfl⟩ := List.mem_map.mp hid
  exact hmem row (List.mem_append_left _ hrow)

theorem Good.commit {accepted : List OutboxEntry} (h : Good s (.marked tx accepted))
    (hobeys : KeepsTo rest .ended) :
    Good { s with outbox := s.outbox.step (.commit tx), cycle := rest } .ended := by
  obtain ⟨htaken, locked, hopen⟩ := h.at_stage
  have hat : At (s.outbox.step (.commit tx)) s.taken .ended := trivial
  refine h.operated rfl rfl (.inr ⟨rfl, Outbox.transaction?_commit hopen⟩) hat
    (h.careful.step_of_ne (by simp)) (fun id hpub => ?_) trivial hobeys
  rcases Nat.eq_zero_or_pos s.outbox.failingCommits with hf | hf
  · rcases (Outbox.isPublished_commit h.wellFormed h.careful hopen hf).mp hpub with hpub | ⟨hmark, -⟩
    · exact h.published id hpub
    · obtain ⟨row, hrow, rfl⟩ := List.mem_map.mp hmark
      exact htaken row hrow
  · exact h.published id ((Outbox.isPublished_commit_failing hf tx id).symm.trans hpub)

theorem Good.rollback {todo : List OutboxEntry} (h : Good s (.sending tx [] todo))
    (hobeys : KeepsTo rest .ended) :
    Good { s with outbox := s.outbox.step (.rollback tx), cycle := rest } .ended := by
  obtain ⟨-, locked, hopen, -⟩ := h.at_stage
  have hat : At (s.outbox.step (.rollback tx)) s.taken .ended := trivial
  exact h.operated rfl rfl (.inr ⟨rfl, Outbox.transaction?_rollback hopen⟩) hat
    (h.careful.step_of_ne (by simp)) (h.published_step (by simp)) trivial hobeys

/-! ## Rows are handed over -/

/-- The row that the cycle hands over next comes behind all that it saw below it. -/
theorem Good.withoutGaps_hand {accepted todo : List OutboxEntry} {entry : OutboxEntry}
    (h : Good s (.sending tx accepted (entry :: todo))) (taken : Bool) :
    WithoutGaps (s.hand entry taken).handed := by
  intro j k hk id hsaw hlt
  rcases getElem?_append_cases hk with hk | ⟨rfl, rfl⟩
  · obtain ⟨hj, -⟩ := List.getElem?_eq_some_iff.mp hk
    rw [System.hand, List.take_append_of_le_length (Nat.le_of_lt hj)]
    exact h.withoutGaps j k hk id hsaw hlt
  · rw [System.hand, List.take_left]
    exact s.mem_taken.mp (h.inTurn.below hsaw hlt)

theorem Good.accept {accepted todo : List OutboxEntry} {entry : OutboxEntry}
    (h : Good s (.sending tx accepted (entry :: todo)))
    (hobeys : KeepsTo rest (.sending tx (accepted ++ [entry]) todo)) :
    Good { s.hand entry true with cycle := rest } (.sending tx (accepted ++ [entry]) todo) := by
  obtain ⟨htaken, locked, hopen, hmem⟩ := h.at_stage
  have hids : (s.hand entry true).taken = s.taken ++ [entry.id] := s.taken_hand_true entry
  have hsub : ∀ id ∈ s.taken, id ∈ (s.hand entry true).taken := fun id hid =>
    hids ▸ List.mem_append_left _ hid
  have hentry : entry.id ∈ (s.hand entry true).taken :=
    hids ▸ List.mem_append_right _ (List.mem_singleton.mpr rfl)
  refine { h with
    at_stage := ⟨fun row hrow => ?_, locked, hopen, fun row hrow => ?_⟩
    obeys := hobeys
    published := fun id hpub => hsub id (h.published id hpub)
    inTurn := h.inTurn.sent hsub hentry
    withoutGaps := h.withoutGaps_hand true }
  · rcases List.mem_append.mp hrow with hrow | hrow
    · exact hsub _ (htaken row hrow)
    · rw [List.mem_singleton.mp hrow]
      exact hentry
  · rw [List.append_assoc] at hrow
    exact hmem row hrow

theorem Good.refuse {accepted todo : List OutboxEntry} {entry : OutboxEntry}
    (h : Good s (.sending tx accepted (entry :: todo)))
    (hobeys : KeepsTo rest (.sending tx accepted [])) :
    Good { s.hand entry false with cycle := rest } (.sending tx accepted []) := by
  obtain ⟨htaken, locked, hopen, hmem⟩ := h.at_stage
  have hsub : ∀ id ∈ s.taken, id ∈ (s.hand entry false).taken := fun id hid =>
    s.taken_hand_false entry ▸ hid
  refine { h with
    at_stage := ⟨fun row hrow => hsub _ (htaken row hrow), locked, hopen, fun row hrow => hmem row ?_⟩
    obeys := hobeys
    published := fun id hpub => hsub id (h.published id hpub)
    inTurn := ⟨.nil, by simp⟩
    withoutGaps := h.withoutGaps_hand false }
  rw [List.append_nil] at hrow
  exact List.mem_append_left _ hrow

/-- The publisher takes the next row or refuses it. -/
theorem Good.send {accepted todo : List OutboxEntry} {entry : OutboxEntry}
    (h : Good s (.sending tx accepted (entry :: todo)))
    {next : Except String Unit → Relay.Action (Except RelayError Nat)}
    (hobeys : KeepsTo (Program.ask (Relay.Request.send entry) next)
      (.sending tx accepted (entry :: todo))) (publisher : Except String Unit) :
    ∃ stage, Good { s.hand entry publisher.isOk with cycle := next publisher } stage := by
  cases publisher with
  | ok => exact ⟨_, h.accept (hobeys.next .accept)⟩
  | error cause => exact ⟨_, h.refuse (hobeys.next (.refuse cause))⟩

/-! ## Every event -/

/-- A request of the cycle that is an operation. -/
theorem advance_operation {r : Relay.Request}
    {next : Requests.Answer r → Relay.Action (Except RelayError Nat)} {a : Requests.Answer r}
    (hcycle : s.cycle = .ask r next) (hop : r.operation? = some op) (hfetch : ∀ tx n, r ≠ .fetch tx n)
    (ha : (Outbox.serve r s.outbox).1 = a) (publisher : Except String Unit) :
    s.advance publisher = { s with outbox := s.outbox.step op, cycle := next a } := by
  have hserve := Outbox.serve_eq hop s.outbox ha
  cases r with
  | send => cases hop
  | hook => cases hop
  | tick => cases hop
  | fetch tx n => exact absurd rfl (hfetch tx n)
  | _ => simp only [System.advance, hcycle, System.answer, hserve]

theorem Good.advance (h : Good s stage) (publisher : Except String Unit) :
    ∃ stage, Good (s.advance publisher) stage := by
  cases hcycle : s.cycle with
  | done result => exact ⟨stage, by rw [System.advance, hcycle]; exact h⟩
  | ask r next =>
    have hobeys := h.obeys
    rw [hcycle] at hobeys
    obtain ⟨a, stage', hm⟩ := hobeys.allowed
    cases hm with
    | begin =>
      rw [advance_operation hcycle rfl (by simp) rfl]
      exact ⟨_, h.begin (hobeys.next (.begin _))⟩
    | @fetch tx limit rows =>
      have hserve := Outbox.serve_eq rfl _ (congrArg Prod.fst (Outbox.serve_fetch h.at_stage limit))
      simp only [System.advance, hcycle, System.answer, hserve]
      exact ⟨_, h.fetch limit (hobeys.next (.fetch _))⟩
    | accept =>
      simp only [System.advance, hcycle, System.answer]
      exact h.send hobeys publisher
    | refuse =>
      simp only [System.advance, hcycle, System.answer]
      exact h.send hobeys publisher
    | @mark tx accepted todo ids hids =>
      subst hids
      obtain ⟨-, locked, hopen, -⟩ := h.at_stage
      rw [advance_operation hcycle rfl (by simp) (congrArg Prod.fst (Outbox.serve_mark hopen _))]
      exact ⟨_, h.mark (hobeys.next (.mark rfl))⟩
    | commit =>
      rw [advance_operation hcycle rfl (by simp) rfl]
      exact ⟨_, h.commit (hobeys.next (.commit _))⟩
    | @rollback tx accepted todo hnone =>
      subst hnone
      obtain ⟨-, locked, hopen, -⟩ := h.at_stage
      rw [advance_operation hcycle rfl (by simp) (congrArg Prod.fst (Outbox.serve_rollback hopen))]
      exact ⟨_, h.rollback (hobeys.next (.rollback rfl))⟩
    | hook event =>
      simp only [System.advance, hcycle, System.answer]
      exact ⟨_, { h with obeys := hobeys.next (.hook event) }⟩

theorem Good.step (h : Good s stage) (e : Event) : ∃ stage, Good (s.step e) stage := by
  cases e with
  | write op => exact ⟨stage, h.write op⟩
  | poll batchSize => exact h.poll batchSize
  | advance publisher => exact h.advance publisher

theorem Good.after (h : Good s stage) (events : List Event) :
    ∃ stage, Good (s.after events) stage := by
  induction events generalizing s stage with
  | nil => exact ⟨stage, h⟩
  | cons e events ih =>
    obtain ⟨stage', h'⟩ := h.step e
    exact ih h'

/-! ## The order -/

/-- Of the rows that a cycle saw, none is handed over late. -/
theorem WithoutGaps.inOrder {handed : List Handing} (h : WithoutGaps handed) :
    InOrder Handing.saw handed := by
  intro i j g k hg _ hij _ hlt hsaw
  obtain ⟨earlier, hmem, -, hid⟩ := h i g hg k.row.id hsaw hlt
  exact ⟨earlier, (List.take_subset_take_left handed (Nat.le_of_lt hij)) hmem, hid⟩

/-- The order in which rows are handed over. -/
structure Orderly (handed : List Handing) : Prop where
  withoutGaps : WithoutGaps handed
  inOrder : InOrder Handing.saw handed

/-- However writers, cycles and the publisher act, whenever a row is handed over all smaller ones that
its cycle saw have been taken; so behind a row that was taken no smaller one that its cycle saw comes
for the first time. -/
theorem orderly_handed (events : List Event) : Orderly (({} : System).after events).handed := by
  obtain ⟨stage, h⟩ := good_start.after events
  exact ⟨h.withoutGaps, h.withoutGaps.inOrder⟩

/-- Two writers overlap: the first row is committed when the second one has been handed over. -/
def overlapping : List Event :=
  let entry : NewEntry := { eventName := "order.paid", payload := .null, createdAt := 0 }
  let cycle := Event.poll 10 :: List.replicate 8 (.advance (.ok ()))
  [.write .begin, .write (.insert 0 entry), .write .begin, .write (.insert 1 entry),
    .write (.commit 1)] ++ cycle ++ [.write (.commit 0)] ++ cycle

/-- A row that is committed late is handed over behind a greater one, and for the first time. -/
theorem not_inOrder :
    ¬ ∀ events, InOrder (fun _ _ => True) (({} : System).after events).handed := by
  intro h
  have hids : (({} : System).after overlapping).handed.map (fun h => (h.row.id, h.taken)) =
      [(2, true), (1, true)] := by decide
  have hin := h overlapping
  generalize (({} : System).after overlapping).handed = handed at hids hin
  obtain ⟨g, rest, rfl, hg, hrest⟩ := List.map_eq_cons_iff.mp hids
  obtain ⟨late, rest, rfl, hlate, -⟩ := List.map_eq_cons_iff.mp hrest
  obtain ⟨hgid, htaken⟩ := Prod.mk.inj hg
  obtain ⟨hlateid, -⟩ := Prod.mk.inj hlate
  have hlt : late.row.id < g.row.id := by rw [hgid, hlateid]; decide
  obtain ⟨k, hk, hid⟩ := hin 0 1 g late rfl rfl Nat.zero_lt_one htaken hlt trivial
  rw [List.mem_singleton.mp hk] at hid
  exact absurd hid (Int.ne_of_gt hlt)

end Courier.Handover
