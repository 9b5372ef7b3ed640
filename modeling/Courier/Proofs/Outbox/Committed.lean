import Courier.Proofs.Outbox.Followed
import Courier.Proofs.Outbox.Serial
import Mathlib.Data.List.Sort

/-!
# Committed rows follow from the history

The committed rows of an outbox are those that its history stands for (`rows_of_history`): one row
for each row that a committed transaction has written, published if a committed transaction has marked
it. So they depend on which transactions were committed, and not on the order in which they were.

`Recorded` ties the rows to the history. It needs that transactions mark only what they have fetched
or written, for a mark on a row that is not there when the transaction commits would be lost. One
operation keeps it (`Recorded.step`) if what is committed is marked so.
-/

namespace Courier.Outbox

variable {o : Outbox} {op : Operation} {h h' : History} {tx other : TransactionId}
  {t : OutboxTransaction}

/-! ## Committed rows -/

theorem WellFormed.committed_step (wf : o.WellFormed) (op : Operation) {id : Int}
    (hid : o.committed id) : (o.step op).committed id := by
  obtain ⟨row, hrow, rfl⟩ := hid
  obtain ⟨row', hrow', e⟩ := wf.rowsKept_step op row hrow
  exact ⟨row', hrow', by rcases e with rfl | rfl <;> rfl⟩

/-- Locked rows have been committed. -/
def HeldCommitted (o : Outbox) : Prop :=
  ∀ tx t, o.transaction? tx = some t → ∀ id ∈ t.locked, o.committed id

theorem heldCommitted_empty : HeldCommitted {} :=
  fun tx t ht => by simp [transaction?] at ht

theorem HeldCommitted.step (hh : o.HeldCommitted) (wf : o.WellFormed) (op : Operation) :
    (o.step op).HeldCommitted := by
  intro tx t ht id hid
  refine wf.committed_step op ?_
  cases became ht with
  | begun => cases hid
  | same h' => exact hh tx t h' id hid
  | staged h' => exact hh tx _ h' id hid
  | locked h' =>
    rcases List.mem_append.mp hid with hid | hid
    · exact hh tx _ h' id hid
    · obtain ⟨row, hrow, rfl⟩ := List.mem_map.mp hid
      exact ⟨row, (unlocked_of_available hrow).committed, rfl⟩
  | marked h' => exact hh tx _ h' id hid

/-- The rows are those that the history stands for. -/
structure Recorded (o : Outbox) (h : History) : Prop where
  wf : o.WellFormed
  held : o.HeldCommitted
  followed : o.Followed h
  /-- A committed transaction has marked only rows that are there. -/
  published : ∀ id ∈ h.published, o.committed id
  rows : o.rows = h.rows

theorem recorded_empty : Recorded {} {} :=
  ⟨wellFormed_empty, heldCommitted_empty, followed_empty, by simp [History.published], rfl⟩

/-! ## Rows of a history -/

theorem markedIn_markedIn (ids more : List Int) (row : OutboxEntry) :
    (row.markedIn ids).markedIn more = row.markedIn (ids ++ more) := by
  unfold OutboxEntry.markedIn
  grind

theorem markedIn_congr {ids ids' : List Int} {row : OutboxEntry} (h : row.id ∈ ids ↔ row.id ∈ ids') :
    row.markedIn ids = row.markedIn ids' := by
  unfold OutboxEntry.markedIn
  simp only [h]

/-- Rows in order are the same if their members are. -/
theorem Ascending.ext {rows rows' : List OutboxEntry} (ha : Ascending rows) (ha' : Ascending rows')
    (h : ∀ row, row ∈ rows ↔ row ∈ rows') : rows = rows' := by
  have nodup : ∀ {rows : List OutboxEntry}, Ascending rows → rows.Nodup :=
    fun ha => .of_map _ ha.ids_nodup
  refine ((List.perm_ext_iff_of_nodup (nodup ha) (nodup ha')).mpr h).eq_of_pairwise ?_ ha ha'
  intro a b _ _ hab hba
  exact absurd hab (Int.lt_asymm hba)

theorem Followed.ascending_rows (hf : o.Followed h) : Ascending h.rows := by
  refine List.pairwise_map.mpr ((hf.ascending.filter _).imp fun hab => ?_)
  simpa using hab

/-- Transactions with the same deeds leave the same rows. -/
structure History.SameDeeds (h h' : History) : Prop where
  inserts : ∀ e, e ∈ h.inserts ↔ e ∈ h'.inserts
  marks : ∀ e, e ∈ h.marks ↔ e ∈ h'.marks
  commits : ∀ tx, tx ∈ h.commits ↔ tx ∈ h'.commits

theorem History.SameDeeds.mem_rows (hs : h.SameDeeds h') {row : OutboxEntry} :
    row ∈ h.rows ↔ row ∈ h'.rows := by
  have hpublished : ∀ id, id ∈ h.published ↔ id ∈ h'.published := fun id => by
    simp only [mem_published, transaction, mem_of, hs.marks, hs.commits]
  simp only [History.mem_rows, transaction, mem_of, hs.inserts, hs.commits,
    markedIn_congr (hpublished _)]

/-! ## One operation -/

/-- Nothing is committed without a commit, whatever else a transaction does. -/
theorem rows_insert (htx : tx ∉ h.commits) (more : List OutboxEntry) :
    ({ h with inserts := h.inserts ++ more.map fun row => (tx, row) } : History).rows = h.rows := by
  have hnone : (more.map fun row => (tx, row)).filter (fun e => decide (e.1 ∈ h.commits)) = [] := by
    simpa [List.filter_eq_nil_iff] using fun _ _ => htx
  simp only [History.rows, History.published, List.filter_append, hnone, List.append_nil]

theorem published_mark (htx : tx ∉ h.commits) (ids : List Int) :
    ({ h with marks := h.marks ++ ids.map fun id => (tx, id) } : History).published =
      h.published := by
  have hnone : (ids.map fun id => (tx, id)).filter (fun e => decide (e.1 ∈ h.commits)) = [] := by
    simpa [List.filter_eq_nil_iff] using fun _ _ => htx
  simp only [History.published, List.filter_append, hnone, List.append_nil]

/-- What a commit adds to what is published. -/
theorem mem_published_commit {id : Int} :
    id ∈ ({ h with commits := h.commits ++ [tx] } : History).published ↔
      id ∈ h.published ∨ id ∈ (h.transaction tx).marks := by
  simp only [History.mem_published, List.mem_append, List.mem_singleton, or_and_right, exists_or,
    exists_eq_left]
  rfl

/-- A commit puts the rows of the transaction among the others and marks them. -/
theorem Recorded.mem_rows_commit (hr : o.Recorded h) (ht : o.transaction? tx = some t)
    {row : OutboxEntry} : row ∈ applied t o.rows ↔
      row ∈ ({ h with commits := h.commits ++ [tx] } : History).rows := by
  obtain ⟨rfl, -⟩ := (hr.followed.current tx).of_open ht
  set ids := ({ h with commits := h.commits ++ [tx] } : History).published with hids
  have old : ∀ written : OutboxEntry,
      (written.markedIn h.published).markedIn (h.transaction tx).marks = written.markedIn ids := by
    intro written
    rw [markedIn_markedIn]
    exact markedIn_congr (List.mem_append.trans mem_published_commit.symm)
  -- an id that has been published is that of another row
  have new : ∀ written ∈ (h.transaction tx).inserts,
      written.markedIn (h.transaction tx).marks = written.markedIn ids := by
    intro written hwritten
    refine markedIn_congr ⟨fun hmark => mem_published_commit.mpr (.inr hmark), fun hid => ?_⟩
    refine (mem_published_commit.mp hid).resolve_left fun hpublished => ?_
    obtain ⟨other, hother, e⟩ := hr.published _ hpublished
    have hnodup := hr.wf.ids.inserts ht
    rw [List.map_append, List.nodup_append] at hnodup
    exact hnodup.2.2 _ (List.mem_map_of_mem hother) _ (List.mem_map_of_mem hwritten) e
  rw [(hr.wf.applied_perm ht).mem_iff, hr.rows, List.mem_map, History.mem_rows]
  simp only [List.mem_append, List.mem_singleton]
  constructor
  · rintro ⟨row, hrow | hrow, rfl⟩
    · obtain ⟨tx', htx', written, hwritten, rfl⟩ := History.mem_rows.mp hrow
      exact ⟨tx', .inl htx', written, hwritten, old written⟩
    · exact ⟨tx, .inr rfl, row, hrow, new row hrow⟩
  · rintro ⟨tx', htx' | rfl, written, hwritten, rfl⟩
    · exact ⟨_, .inl (History.mem_rows.mpr ⟨tx', htx', written, hwritten, rfl⟩), old written⟩
    · exact ⟨written, .inr hwritten, new written hwritten⟩

theorem Recorded.step (hr : o.Recorded h)
    (hmarks : ∀ tx t, op = .commit tx → o.transaction? tx = some t →
      ∀ id ∈ t.marks, id ∈ t.locked ∨ ∃ row ∈ t.inserts, row.id = id) :
    (o.step op).Recorded (h.note o op) := by
  have hn := noted o h op
  have wf := hr.wf.step op
  have held := hr.held.step hr.wf op
  have followed := hr.followed.noted hn
  generalize o.step op = o', h.note o op = h' at hn wf held followed
  have open_not : ∀ {tx t}, o.transaction? tx = some t → tx ∉ h.commits := fun ht =>
    ((hr.followed.current _).of_open ht).2.1
  refine ⟨wf, held, followed, ?_, ?_⟩
  · cases hn with
    | mark ids ht =>
      rw [published_mark (open_not ht)]
      exact hr.published
    | @commit tx t ht =>
      -- the rows of before are there still, and those of the transaction are now
      have kept : ∀ row ∈ o.rows ++ t.inserts, committed { o with rows := applied t o.rows } row.id :=
        fun row hrow => ⟨row.markedIn t.marks,
          (hr.wf.applied_perm ht).mem_iff.mpr (List.mem_map_of_mem hrow),
          OutboxEntry.id_markedIn t.marks row⟩
      have before : ∀ id, o.committed id → committed { o with rows := applied t o.rows } id := by
        rintro _ ⟨row, hrow, rfl⟩
        exact kept row (List.mem_append_left _ hrow)
      intro id hid
      rcases mem_published_commit.mp hid with hid | hid
      · exact before id (hr.published id hid)
      · rw [← ((hr.followed.current tx).of_open ht).1] at hid
        rcases hmarks tx t rfl ht id hid with hid | ⟨row, hrow, rfl⟩
        · exact before id (hr.held tx t ht id hid)
        · exact kept row (List.mem_append_right _ hrow)
    | _ => exact hr.published
  · cases hn with
    | insert entry ht => exact hr.rows.trans (rows_insert (open_not ht) _).symm
    | mark ids ht =>
      refine hr.rows.trans ?_
      unfold History.rows
      rw [published_mark (open_not ht)]
    | commit ht =>
      exact Ascending.ext wf.ascending followed.ascending_rows fun _ => hr.mem_rows_commit ht
    | _ => exact hr.rows

/-! ## All operations -/

theorem History.Own.marks (hown : h.Own) {id : Int} (hid : id ∈ (h.transaction tx).marks) :
    id ∈ (h.transaction tx).locked ∨ ∃ row ∈ (h.transaction tx).inserts, row.id = id := by
  rcases hown (tx, id) (mem_of.mp hid) with hmark | hmark
  · exact .inl (mem_of.mpr hmark)
  · obtain ⟨⟨_, row⟩, hrow, e⟩ := List.mem_map.mp hmark
    obtain ⟨rfl, rfl⟩ := Prod.mk.inj e
    exact .inr ⟨row, mem_of.mpr hrow, rfl⟩

theorem transaction_note_commit :
    (h.note o (.commit tx)).transaction other = h.transaction other := by
  simp only [History.note]
  split <;> rfl

/-- What a transaction has marked when it is committed is all that it ever marks. -/
theorem Recorded.after (hr : o.Recorded h) (operations : List Operation)
    (hown : (h.noteAll o operations).Own) :
    (o.after operations).Recorded (h.noteAll o operations) := by
  induction operations generalizing o h with
  | nil => exact hr
  | cons op operations ih =>
    refine ih (hr.step fun tx t hop ht id hid => ?_) hown
    obtain ⟨rfl, -⟩ := (hr.followed.current tx).of_open ht
    have hsame : ((h.note o op).noteAll (o.step op) operations).transaction tx =
        h.transaction tx := by
      subst hop
      exact (transaction_noteAll (stateOf_commit ht) operations).trans transaction_note_commit
    rw [← hsame] at hid ⊢
    exact hown.marks hid

/-! ## What the history tells -/

/-- What the history tells of the committed rows. -/
structure Reflects (o : Outbox) (h : History) : Prop where
  rows : o.rows = h.rows
  published : ∀ row ∈ o.rows,
    (row.published = true ↔ ∃ tx ∈ h.commits, row.id ∈ (h.transaction tx).marks)
  /-- A transaction that was not committed has left a gap for each of its rows. -/
  absent : ∀ tx, tx ∉ h.commits → ∀ row ∈ (h.transaction tx).inserts, ¬ o.committed row.id
  discarded : ∀ tx ∈ h.discards, tx ∉ h.commits

theorem Recorded.reflects (hr : o.Recorded h) : o.Reflects h := by
  have hf := hr.followed
  refine ⟨hr.rows, fun row hrow => ?_, fun tx htx row hrow hmem => ?_, hf.discarded⟩
  · rw [hr.rows] at hrow
    obtain ⟨tx, htx, written, hwritten, rfl⟩ := History.mem_rows.mp hrow
    have hfresh : written.published = false := hf.unpublished _ (History.mem_of.mp hwritten)
    rw [← History.mem_published, OutboxEntry.published_markedIn, hfresh, OutboxEntry.id_markedIn]
    simp only [Bool.false_eq_true, false_or]
  · obtain ⟨other, hother, hid⟩ := hmem
    rw [hr.rows] at hother
    obtain ⟨tx', htx', written, hwritten, rfl⟩ := History.mem_rows.mp hother
    rw [OutboxEntry.id_markedIn] at hid
    -- an id is given to one row only
    have hids : (h.inserts.map (·.2.id)).Nodup :=
      List.pairwise_map.mpr (hf.ascending.imp fun hab => Int.ne_of_lt hab)
    have hsame := List.inj_on_of_nodup_map hids (History.mem_of.mp hwritten)
      (History.mem_of.mp hrow) hid
    exact htx ((Prod.mk.inj hsame).1 ▸ htx')

/-- Whatever transactions do at the same time, the committed rows are those that the history stands
for, if each transaction marks only what it has fetched or written. So they are the same whenever the
same transactions are committed, in whatever order. -/
theorem rows_of_history (operations : List Operation)
    (hown : (History.noteAll {} {} operations).Own) :
    (({} : Outbox).after operations).Reflects (History.noteAll {} {} operations) ∧
      ∀ operations', (History.noteAll {} {} operations').Own →
        (History.noteAll {} {} operations).SameDeeds (History.noteAll {} {} operations') →
        (({} : Outbox).after operations').rows = (({} : Outbox).after operations).rows := by
  have hr := recorded_empty.after operations hown
  refine ⟨hr.reflects, fun operations' hown' hs => ?_⟩
  have hr' := recorded_empty.after operations' hown'
  refine Ascending.ext hr'.wf.ascending hr.wf.ascending fun row => ?_
  rw [hr'.rows, hr.rows, hs.mem_rows]

/-- Three transactions write at the same time, and the commit of the last one fails. The others are
committed in this order. Then a row is fetched and marked, and one is given up. -/
def crossing (order : List TransactionId) : List Operation :=
  let row : NewEntry := { eventName := "paid", payload := .null, createdAt := 0 }
  [.begin, .begin, .begin, .insert 0 row, .insert 1 row, .insert 2 row, .insert 1 row,
    .mark 0 [1], .failNextCommits 1, .commit 2] ++ order.map .commit ++
  [.begin, .fetch 3 1, .begin, .insert 4 row, .mark 3 [2], .rollback 4, .commit 3]

theorem rows_of_history_crossing :
    (History.noteAll {} {} (crossing [0, 1])).Own ∧
      (({} : Outbox).after (crossing [0, 1])).rows.map (fun row => (row.id, row.published)) =
        [(1, true), (2, true), (4, false)] ∧
      (({} : Outbox).after (crossing [0, 1])).Reflects (History.noteAll {} {} (crossing [0, 1])) ∧
      (History.noteAll {} {} (crossing [0, 1])).commits = [0, 1, 3] ∧
      (History.noteAll {} {} (crossing [1, 0])).commits = [1, 0, 3] ∧
      (({} : Outbox).after (crossing [1, 0])).rows = (({} : Outbox).after (crossing [0, 1])).rows :=
  have reflects := rows_of_history (crossing [0, 1]) (by decide +kernel)
  ⟨by decide +kernel, by decide +kernel, reflects.1, by decide +kernel, by decide +kernel,
    reflects.2 (crossing [1, 0]) (by decide +kernel)
      ⟨fun _ => Iff.rfl, fun _ => Iff.rfl, fun tx => by
        have e : (History.noteAll {} {} (crossing [0, 1])).commits = [0, 1, 3] := by decide +kernel
        have e' : (History.noteAll {} {} (crossing [1, 0])).commits = [1, 0, 3] := by decide +kernel
        rw [e, e']
        exact (List.Perm.swap 1 0 [3]).mem_iff⟩⟩

end Courier.Outbox
