import Courier.Proofs.Memory.Conservation

/-!
# The order of arrival

Each copy that is put into a queue gets the next number of that queue. `Numbering` follows the
numbers: of the ready copies of a queue in their order, and of what has been delivered. A delivery
takes the number that stands first, and brings it back to the front when its message is put back;
new copies stand last.

So the copies that have never been delivered stand in the order of their arrival behind those that
have been put back (`Lined.line`), and none of them is missing: `arrived_after` says so of a broker
after any activities.
-/

namespace Courier.Memory

variable {m m' : Memory} {a a' : Account} {queue : String}

/-- The numbers of the copies in each queue. -/
structure Numbering where
  /-- Of the ready copies, the next one first. -/
  line : String → List Nat := fun _ => []
  /-- Of the deliveries: the queue and the number there. -/
  drawn : List (String × Nat) := []

namespace Numbering

/-- The numbers of deliveries that have been put back to a queue. -/
def restored (t : Numbering) (queue : String) (settled : List Settlement) : List Nat :=
  settled.filterMap fun s =>
    if s.queue = queue ∧ s.outcome = .nack true then t.drawn[s.delivery]?.map (·.2) else none

/-- Note what has been delivered, settled and sent since. -/
def enter (t : Numbering) (a : Account) (delivered : List Delivery) (settled : List Settlement)
    (sent : List (String × Message)) : Numbering where
  line queue := t.restored queue settled ++
    (t.line queue).drop (delivered.countP fun d => d.queue == queue) ++
    List.range' (copiesTo queue a.sent).length (copiesTo queue sent).length
  drawn := t.drawn ++ delivered.map fun d => (d.queue, (t.line d.queue).headD 0)

/-- Note what an activity has done. -/
def note (t : Numbering) (m : Memory) (a : Account) (activity : Activity) : Numbering :=
  t.enter a ((m.act activity).deliveries.drop m.deliveries.length)
    ((a.note m activity).settled.drop a.settled.length) ((a.note m activity).sent.drop a.sent.length)

/-- Note what activities have done, one after another. -/
def noteAll (t : Numbering) (m : Memory) (a : Account) : List Activity → Numbering
  | [] => t
  | activity :: activities =>
    (t.note m a activity).noteAll (m.act activity) (a.note m activity) activities

end Numbering

/-- The copy of a number. -/
def copyOf (a : Account) (queue : String) (number : Nat) : Option Message :=
  (copiesTo queue a.sent)[number]?

/-- How many copies a queue has got. -/
def arrivals (a : Account) (queue : String) : Nat :=
  (copiesTo queue a.sent).length

/-- The numbers are those of the copies, and a queue has those that have been put back and then those
that were never delivered. -/
structure Lined (m : Memory) (a : Account) (t : Numbering) : Prop where
  ready : ∀ queue, (t.line queue).map (copyOf a queue) = (m.ready queue).map some
  length : t.drawn.length = m.deliveries.length
  drawn : ∀ (i : DeliveryId) (d : Delivery), m.deliveries[i]? = some d →
    ∃ k, t.drawn[i]? = some (d.queue, k) ∧ copyOf a d.queue k = some d.message
  line : ∀ queue, ∃ again first, t.line queue = again ++ (List.range (arrivals a queue)).drop first ∧
    first ≤ arrivals a queue ∧ (∀ k ∈ again, k < first) ∧
    ∀ k, (queue, k) ∈ t.drawn ↔ k < first

theorem copyOf_append {k : Nat} {message : Message} (h : copyOf a queue k = some message)
    (copies : List (String × Message)) (settled : List Settlement) :
    copyOf ⟨a.sent ++ copies, settled⟩ queue k = some message := by
  rw [copyOf, copiesTo_append, List.getElem?_append_left (List.getElem?_eq_some_iff.mp h).1]
  exact h

theorem map_copyOf_append {numbers : List Nat} {messages : List Message}
    (h : numbers.map (copyOf a queue) = messages.map some) (copies : List (String × Message))
    (settled : List Settlement) :
    numbers.map (copyOf ⟨a.sent ++ copies, settled⟩ queue) = messages.map some := by
  rw [← h]
  refine List.map_congr_left fun k hk => ?_
  have hsome : copyOf a queue k ∈ messages.map some := h ▸ List.mem_map_of_mem hk
  obtain ⟨message, -, hcopy⟩ := List.mem_map.mp hsome
  rw [← hcopy, copyOf_append hcopy.symm]

/-- New copies get the next numbers. -/
theorem map_copyOf_range' (a : Account) (copies : List (String × Message)) (settled : List Settlement)
    (queue : String) :
    (List.range' (arrivals a queue) (copiesTo queue copies).length).map
      (copyOf ⟨a.sent ++ copies, settled⟩ queue) = (copiesTo queue copies).map some := by
  refine List.ext_getElem (by simp) fun i h₁ h₂ => ?_
  have hi : i < (copiesTo queue copies).length := by simpa using h₂
  rw [List.getElem_map, List.getElem_range', List.getElem_map, Nat.one_mul, copyOf, copiesTo_append,
    arrivals, List.getElem?_append_right (Nat.le_add_right _ _), Nat.add_sub_cancel_left,
    List.getElem?_eq_getElem hi]

theorem arrivals_append (a : Account) (copies : List (String × Message)) (settled : List Settlement)
    (queue : String) :
    arrivals ⟨a.sent ++ copies, settled⟩ queue = arrivals a queue + (copiesTo queue copies).length := by
  rw [arrivals, copiesTo_append, List.length_append, arrivals]

/-- The new numbers stand behind those that were never delivered. -/
theorem drop_range_append {n first : Nat} (h : first ≤ n) (k : Nat) :
    (List.range n).drop first ++ List.range' n k = (List.range (n + k)).drop first := by
  have hrange : List.range (n + k) = List.range n ++ List.range' n k := by
    rw [List.range_eq_range', List.range_eq_range', ← List.range'_append_1, Nat.zero_add]
  rw [hrange, List.drop_append_of_le_length (by simpa using h)]

/-! ## What an activity does -/

variable {t : Numbering}

/-- Some are put back to the front, and more are sent. -/
theorem Lined.enter_sent (hl : Lined m a t) {settled : List Settlement}
    {copies : List (String × Message)} {back : String → List Message}
    (hback : ∀ queue, (t.restored queue settled).map (copyOf a queue) = (back queue).map some)
    (hagain : ∀ queue, ∀ k ∈ t.restored queue settled, (queue, k) ∈ t.drawn)
    (hready : ∀ queue, m'.ready queue = back queue ++ m.ready queue ++ copiesTo queue copies)
    (hlength : m'.deliveries.length = m.deliveries.length)
    (hdeliveries : ∀ (i : DeliveryId) (d' : Delivery), m'.deliveries[i]? = some d' →
      ∃ d, m.deliveries[i]? = some d ∧ d'.queue = d.queue ∧ d'.message = d.message)
    (settled' : List Settlement) :
    Lined m' ⟨a.sent ++ copies, settled'⟩ (t.enter a [] settled copies) where
  ready queue := by
    rw [hready, List.map_append, List.map_append,
      ← map_copyOf_append (hback queue) copies settled',
      ← map_copyOf_append (hl.ready queue) copies settled',
      ← map_copyOf_range' a copies settled', ← List.map_append, ← List.map_append]
    rfl
  length := by
    rw [hlength, ← hl.length]
    exact congrArg List.length (List.append_nil _)
  drawn i d' hd' := by
    obtain ⟨d, hd, hqueue, hmessage⟩ := hdeliveries i d' hd'
    obtain ⟨k, hk, hcopy⟩ := hl.drawn i d hd
    rw [hqueue, hmessage]
    exact ⟨k, (congrArg (·[i]?) (List.append_nil _)).trans hk, copyOf_append hcopy _ _⟩
  line queue := by
    obtain ⟨again, first, hline, hle, hfirst, hdrawn⟩ := hl.line queue
    refine ⟨t.restored queue settled ++ again, first, ?_, ?_, fun k hk => ?_, fun k => ?_⟩
    · rw [arrivals_append, ← drop_range_append hle, ← List.append_assoc, List.append_assoc _ again,
        ← hline]
      rfl
    · rw [arrivals_append]
      exact Nat.le_add_right_of_le hle
    · rcases List.mem_append.mp hk with hk | hk
      · exact (hdrawn k).mp (hagain queue k hk)
      · exact hfirst k hk
    · rw [← hdrawn]
      simp [Numbering.enter]

/-- The copy that stands first is delivered. -/
theorem Lined.enter_taken (hl : Lined m a t) {name : String} {message : Message}
    (hname : m.ready name = message :: m'.ready name)
    (hother : ∀ queue ≠ name, m'.ready queue = m.ready queue)
    (hdeliveries : m'.deliveries = m.deliveries ++ [⟨name, message, false⟩]) :
    Lined m' a (t.enter a [⟨name, message, false⟩] [] []) := by
  obtain ⟨k, rest, hline, hcopy, hrest⟩ : ∃ k rest, t.line name = k :: rest ∧
      copyOf a name k = some message ∧ rest.map (copyOf a name) = (m'.ready name).map some := by
    have h := hl.ready name
    rw [hname, List.map_cons, List.map_eq_cons_iff] at h
    exact h
  -- the line of the queue has lost its first number, and the other lines are as they were
  have hself : (t.enter a [⟨name, message, false⟩] [] []).line name = rest := by
    simp [Numbering.enter, Numbering.restored, hline]
  have hothers : ∀ queue ≠ name,
      (t.enter a [⟨name, message, false⟩] [] []).line queue = t.line queue := fun queue hne => by
    simp [Numbering.enter, Numbering.restored, Ne.symm hne]
  have hdrawn : (t.enter a [⟨name, message, false⟩] [] []).drawn = t.drawn ++ [(name, k)] := by
    simp [Numbering.enter, hline]
  refine ⟨fun queue => ?_, ?_, fun i d hd => ?_, fun queue => ?_⟩
  · by_cases hq : queue = name
    · rw [hq, hself, hrest]
    · rw [hothers queue hq, hother queue hq, hl.ready]
  · rw [hdrawn, hdeliveries, List.length_append, List.length_append, hl.length]
    rfl
  · rw [hdeliveries, List.getElem?_append, ← hl.length] at hd
    rw [hdrawn, List.getElem?_append]
    split at hd
    · rename_i hlt
      rw [if_pos hlt]
      exact hl.drawn i d hd
    · rename_i hge
      rw [if_neg hge]
      rw [List.getElem?_singleton] at hd ⊢
      split at hd <;> cases hd
      rename_i hzero
      rw [if_pos hzero]
      exact ⟨k, rfl, hcopy⟩
  · obtain ⟨again, first, hagain, hle, hfirst, hnumbers⟩ := hl.line queue
    rw [hdrawn]
    by_cases hq : queue = name
    · subst hq
      rw [hself]
      have hmem : ∀ x, (queue, x) ∈ t.drawn ++ [(queue, k)] ↔ x < first ∨ x = k := fun x => by
        simp [hnumbers]
      rw [hline] at hagain
      cases again with
      | cons k' again =>
        obtain ⟨rfl, hrest'⟩ := List.cons.inj hagain
        have hk : k < first := hfirst k List.mem_cons_self
        refine ⟨again, first, hrest', hle, fun x hx => hfirst x (List.mem_cons_of_mem k hx), fun x => ?_⟩
        rw [hmem]
        omega
      | nil =>
        -- the first one that was never delivered
        have hlt : first < arrivals a queue := by
          have h := congrArg List.length hagain
          simp only [List.nil_append, List.length_cons, List.length_drop, List.length_range] at h
          omega
        rw [List.nil_append, List.drop_eq_getElem_cons (by simpa using hlt),
          List.getElem_range] at hagain
        obtain ⟨rfl, hrest'⟩ := List.cons.inj hagain
        refine ⟨[], k + 1, hrest', hlt, nofun, fun x => ?_⟩
        rw [hmem]
        omega
    · rw [hothers queue hq]
      refine ⟨again, first, hagain, hle, hfirst, fun x => ?_⟩
      rw [← hnumbers]
      simp [hq]

theorem restored_singleton (t : Numbering) (queue : String) (s : Settlement) :
    t.restored queue [s] = if s.queue = queue ∧ s.outcome = .nack true then
      (t.drawn[s.delivery]?.map (·.2)).toList else [] := by
  unfold Numbering.restored
  by_cases h : s.queue = queue ∧ s.outcome = .nack true
  · rw [if_pos h, List.filterMap_cons, if_pos h]
    cases t.drawn[s.delivery]? <;> rfl
  · rw [if_neg h, List.filterMap_cons, if_neg h]
    rfl

theorem Lined.step (hl : Lined m a t) (hb : Balanced m a) (activity : Activity) :
    Lined (m.act activity) (a.note m activity) (t.note m a activity) := by
  have he := entered hb.known a activity
  unfold Numbering.note
  generalize m.act activity = m', a.note m activity = a' at he
  have nothing : ∀ queue, (t.restored queue []).map (copyOf a queue) = ([] : List Message).map some :=
    fun _ => rfl
  cases he with
  | idle hready hu =>
    have h : Lined m' ⟨a.sent ++ [], a.settled⟩ (t.enter a [] [] []) :=
      hl.enter_sent nothing nofun (fun queue => by simpa using hready queue) (by rw [hu.deliveries])
        (fun i d hd => ⟨d, hu.deliveries ▸ hd, rfl, rfl⟩) a.settled
    rw [List.append_nil] at h
    simpa only [hu.deliveries, List.drop_length] using h
  | sent copies hready hu =>
    have h : Lined m' ⟨a.sent ++ copies, a.settled⟩ (t.enter a [] [] copies) :=
      hl.enter_sent nothing nofun hready (by rw [hu.deliveries])
        (fun i d hd => ⟨d, hu.deliveries ▸ hd, rfl, rfl⟩) a.settled
    simpa only [hu.deliveries, List.drop_length, List.drop_left] using h
  | @taken name message hexists hname hother hu =>
    have h := hl.enter_taken hname hother hu.deliveries
    have hnew : m'.deliveries.drop m.deliveries.length = [⟨name, message, false⟩] := by
      rw [hu.deliveries, List.drop_left]
    simpa only [hnew, List.drop_length] using h
  | @settled delivery d outcome copies hd hs hready hu =>
    obtain ⟨k, hk, hcopy⟩ := hl.drawn delivery d hd
    have hrestored : ∀ queue, t.restored queue [⟨delivery, d.queue, d.message, outcome⟩] =
        if outcome = .nack true ∧ queue = d.queue then [k] else [] := fun queue => by
      rw [restored_singleton]
      simp only [hk, Option.map_some, Option.toList_some, and_comm, eq_comm]
    have hlength : m'.deliveries.length = m.deliveries.length := by
      rw [hu.deliveries]
      exact List.length_set
    have h : Lined m' ⟨a.sent ++ copies, a.settled ++ [⟨delivery, d.queue, d.message, outcome⟩]⟩
        (t.enter a [] [⟨delivery, d.queue, d.message, outcome⟩] copies) :=
      hl.enter_sent (fun queue => ?_) (fun queue x hx => ?_) hready hlength (fun i d' hd' => ?_) _
    · simpa only [← hlength, List.drop_length, List.drop_left] using h
    · rw [hrestored]
      split
      · rename_i hback
        rw [hback.2, List.map_singleton, hcopy, List.map_singleton]
      · rfl
    · rw [hrestored] at hx
      split at hx
      · rename_i hback
        rw [List.mem_singleton.mp hx, hback.2]
        exact List.mem_of_getElem? hk
      · cases hx
    · rw [hu.deliveries] at hd'
      by_cases hi : delivery = i
      · subst hi
        rw [getElem?_settledAs_self hd] at hd'
        cases hd'
        exact ⟨d, hd, rfl, rfl⟩
      · rw [getElem?_settledAs_of_ne hi] at hd'
        exact ⟨d', hd', rfl, rfl⟩

/-! ## All activities -/

theorem Lined.after (hl : Lined m a t) (hb : Balanced m a) (activities : List Activity) :
    Lined (m.after activities) (a.noteAll m activities) (t.noteAll m a activities) := by
  induction activities generalizing m a t with
  | nil => exact hl
  | cons activity activities ih => exact ih (hl.step hb activity) (hb.step activity)

/-- What is known of the order of the copies. -/
structure Arrived (m : Memory) (a : Account) (t : Numbering) : Prop where
  /-- The ready copies are those with the numbers in line. -/
  ready : ∀ queue, (t.line queue).map (copyOf a queue) = (m.ready queue).map some
  /-- What was delivered is the copy with the number that was drawn for it. -/
  drawn : ∀ (i : DeliveryId) (d : Delivery), m.deliveries[i]? = some d →
    ∃ k, t.drawn[i]? = some (d.queue, k) ∧ copyOf a d.queue k = some d.message
  /-- The copies that nobody has ever got are all in line, in the order of their arrival. -/
  untouched : ∀ queue, (t.line queue).filter (fun k => (queue, k) ∉ t.drawn) =
    (List.range (arrivals a queue)).filter fun k => (queue, k) ∉ t.drawn

theorem Lined.arrived (hl : Lined m a t) : Arrived m a t := by
  refine ⟨hl.ready, hl.drawn, fun queue => ?_⟩
  obtain ⟨again, first, hline, hle, hfirst, hdrawn⟩ := hl.line queue
  have hgot : ∀ numbers : List Nat, (∀ k ∈ numbers, k < first) →
      numbers.filter (fun k => (queue, k) ∉ t.drawn) = [] := fun numbers h =>
    List.filter_eq_nil_iff.mpr fun k hk => by simpa [hdrawn] using h k hk
  have hsplit := List.take_append_drop first (List.range (arrivals a queue))
  have htake : ∀ k ∈ (List.range (arrivals a queue)).take first, k < first := fun k hk => by
    obtain ⟨i, hi, rfl⟩ := List.mem_take_iff_getElem.mp hk
    rw [List.getElem_range]
    omega
  rw [hline, ← hsplit, List.filter_append, List.filter_append, hsplit, hgot again hfirst, hgot _ htake]

/-- The first copy is put back and the second one is kept: the first is next, and then the third. -/
example : let activities : List Activity :=
    [.request .openChannel, .request (.declareQueue 0 { name := "jobs" }),
      .request (.publish 0 ⟨{ routingKey := "jobs" }, []⟩ {}),
      .request (.publish 0 ⟨{ routingKey := "jobs" }, []⟩ {}),
      .request (.publish 0 ⟨{ routingKey := "jobs" }, []⟩ {}), .request (.consume 0 "jobs" false),
      .ask 0, .ask 0, .request (.nack 0 true)]
    let t := Numbering.noteAll {} {} {} activities
    (t.line "jobs", t.drawn) = ([0, 2], [("jobs", 0), ("jobs", 1)]) := by decide +kernel

end Courier.Memory
