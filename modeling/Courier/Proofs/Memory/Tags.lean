import Courier.Outbox.Entry
import Courier.Proofs.Memory.Routing
import Mathlib.Data.List.Induction

/-!
# Bindings that ask for tags

The tags of an event are headers of its message, one for each tag (`NewEntry.tagHeader`), so a headers
binding can ask for tags: its arguments name their headers, and `x-match` may say how many of them are
asked for. `headersFit_tagArguments` says which events are taken then: those that have one of the tags
if `x-match` is the text `any`, and those that have all of them if it is anything else or missing.
Neither the order of the tags nor how often one is given matters, and a tag may be any text: its header
is no other tag's, and never one of those that a binding leaves out.
-/

namespace Courier

/-! ## Objects made of pairs -/

namespace Json.Object

variable {members : Object} {pairs : List (String × Json)} {key : String} {value : Json}

theorem mem_of_mem_insert {m : String × Json} (h : m ∈ insert key value members) :
    m = (key, value) ∨ m ∈ members := by
  induction members with
  | nil => exact .inl (List.mem_singleton.mp h)
  | cons m' rest ih =>
    obtain ⟨k, v⟩ := m'
    simp only [insert] at h
    split at h
    · exact List.mem_cons.mp h
    split at h
    · exact (List.mem_cons.mp h).imp_right (List.mem_cons_of_mem _)
    · rcases List.mem_cons.mp h with rfl | h
      · exact .inr List.mem_cons_self
      · exact (ih h).imp_right (List.mem_cons_of_mem _)

theorem ofPairs_concat (pairs : List (String × Json)) (key : String) (value : Json) :
    ofPairs (pairs ++ [(key, value)]) = insert key value (ofPairs pairs) := by
  rw [ofPairs, List.foldl_append]
  rfl

theorem mem_of_mem_ofPairs {m : String × Json} (h : m ∈ ofPairs pairs) : m ∈ pairs := by
  induction pairs using List.reverseRecOn with
  | nil => exact absurd h List.not_mem_nil
  | append_singleton pairs pair ih =>
    rw [ofPairs_concat] at h
    rcases mem_of_mem_insert h with rfl | h
    · exact List.mem_append_right _ (List.mem_singleton_self _)
    · exact List.mem_append_left _ (ih h)

/-- A key that always comes with the same value has that value. -/
theorem get?_ofPairs (hmem : (key, value) ∈ pairs) (hsame : ∀ v, (key, v) ∈ pairs → v = value) :
    (ofPairs pairs).get? key = some value := by
  induction pairs using List.reverseRecOn with
  | nil => exact absurd hmem List.not_mem_nil
  | append_singleton pairs pair ih =>
    obtain ⟨k, v⟩ := pair
    rw [ofPairs_concat]
    by_cases hk : key = k
    · subst hk
      rw [hsame v (List.mem_append_right _ (List.mem_singleton_self _))]
      exact get?_insert_self key value _
    · rw [get?_insert_of_ne hk]
      refine ih ?_ fun v' hv' => hsame v' (List.mem_append_left _ hv')
      rcases List.mem_append.mp hmem with hmem | hmem
      · exact hmem
      · exact absurd (congrArg Prod.fst (List.mem_singleton.mp hmem)) hk

theorem get?_ofPairs_eq_none (h : ∀ v, (key, v) ∉ pairs) : (ofPairs pairs).get? key = none := by
  rw [get?, List.lookup_eq_none_iff]
  intro m hm
  obtain ⟨k, v⟩ := m
  exact bne_iff_ne.mpr fun hk => h v (hk ▸ mem_of_mem_ofPairs hm)

theorem mem_of_get? (h : members.get? key = some value) : (key, value) ∈ members := by
  obtain ⟨before, after, rfl, -⟩ := List.lookup_eq_some_iff.mp h
  exact List.mem_append_right _ List.mem_cons_self

end Json.Object

open Json (Object)

/-! ## Tags as headers -/

/-- The headers that stand for tags. -/
def tagPairs (tags : List String) : List (String × Json) :=
  tags.map fun tag => (NewEntry.tagHeader tag, .bool true)

theorem tagHeader_injective {tag tag' : String}
    (h : NewEntry.tagHeader tag = NewEntry.tagHeader tag') : tag = tag' :=
  (String.append_right_inj "tag.").mp h

theorem mem_tagPairs {tags : List String} {tag : String} {value : Json} :
    (NewEntry.tagHeader tag, value) ∈ tagPairs tags ↔ tag ∈ tags ∧ value = .bool true := by
  simp only [tagPairs, List.mem_map, Prod.mk.injEq]
  constructor
  · rintro ⟨tag', hmem, hheader, rfl⟩
    exact ⟨tagHeader_injective hheader ▸ hmem, rfl⟩
  · rintro ⟨hmem, rfl⟩
    exact ⟨tag, hmem, rfl, rfl⟩

/-- The message of an event has the header of a tag if the event has the tag. -/
theorem hasHeader_tagPairs {tags : List String} {tag : String} :
    Memory.hasHeader (Object.ofPairs (tagPairs tags)) (NewEntry.tagHeader tag, .bool true) = true ↔
      tag ∈ tags := by
  rw [Memory.hasHeader]
  by_cases htag : tag ∈ tags
  · rw [Object.get?_ofPairs (mem_tagPairs.mpr ⟨htag, rfl⟩) fun v hv => (mem_tagPairs.mp hv).2]
    exact iff_of_true rfl htag
  · rw [Object.get?_ofPairs_eq_none fun v hv => htag (mem_tagPairs.mp hv).1]
    exact iff_of_false Bool.false_ne_true htag

/-! ## Bindings by tags -/

/-- The arguments of a binding that asks for tags, with what is given for `x-match`. -/
def tagArguments (wanted : List String) (mode : Option Json) : Headers :=
  Object.ofPairs (tagPairs wanted ++ mode.toList.map fun value => ("x-match", value))

/-- The tags are as wanted: one of them is there if `any` is asked for, else all are. -/
def TagsFit (wanted : List String) (mode : Option Json) (tags : List String) : Prop :=
  (mode = some (.text "any") → ∃ tag ∈ wanted, tag ∈ tags) ∧
    (mode ≠ some (.text "any") → ∀ tag ∈ wanted, tag ∈ tags)

variable {wanted : List String} {mode : Option Json}

theorem isReserved_tagHeader (tag : String) :
    Memory.isReserved (NewEntry.tagHeader tag) = false := by
  rw [Memory.isReserved, NewEntry.tagHeader, String.toList_append]
  rfl

theorem tagHeader_ne_mode (tag : String) : NewEntry.tagHeader tag ≠ "x-match" := by
  intro h
  have hreserved := isReserved_tagHeader tag
  rw [h] at hreserved
  exact absurd hreserved (by decide)

theorem get?_tagArguments : (tagArguments wanted mode).get? "x-match" = mode := by
  have htags : ∀ v, ("x-match", v) ∉ tagPairs wanted := by
    intro v hv
    obtain ⟨tag, -, hpair⟩ := List.mem_map.mp hv
    exact tagHeader_ne_mode tag (congrArg Prod.fst hpair)
  cases mode with
  | none =>
    rw [tagArguments, Option.toList_none, List.map_nil, List.append_nil]
    exact Object.get?_ofPairs_eq_none htags
  | some value =>
    rw [tagArguments, Option.toList_some, List.map_singleton, Object.ofPairs_concat]
    exact Object.get?_insert_self _ _ _

/-- What a binding asks for beside `x-match` are its tags. -/
theorem mem_tagArguments (mode : Option Json) {argument : String × Json} :
    argument ∈ tagArguments wanted mode ∧ Memory.isReserved argument.1 = false ↔
      ∃ tag ∈ wanted, argument = (NewEntry.tagHeader tag, .bool true) := by
  constructor
  · rintro ⟨hmem, hreserved⟩
    rcases List.mem_append.mp (Object.mem_of_mem_ofPairs hmem) with hmem | hmem
    · obtain ⟨tag, htag, rfl⟩ := List.mem_map.mp hmem
      exact ⟨tag, htag, rfl⟩
    · obtain ⟨value, -, rfl⟩ := List.mem_map.mp hmem
      exact absurd hreserved (show Memory.isReserved "x-match" ≠ false by decide)
  · rintro ⟨tag, htag, rfl⟩
    refine ⟨Object.mem_of_get? (Object.get?_ofPairs ?_ fun v hv => ?_), isReserved_tagHeader tag⟩
    · exact List.mem_append_left _ (mem_tagPairs.mpr ⟨htag, rfl⟩)
    · rcases List.mem_append.mp hv with hv | hv
      · exact (mem_tagPairs.mp hv).2
      · obtain ⟨value, -, hpair⟩ := List.mem_map.mp hv
        exact absurd (congrArg Prod.fst hpair).symm (tagHeader_ne_mode tag)

theorem text?_eq_any {value : Json} : value.text? = some "any" ↔ value = .text "any" := by
  cases value <;> simp [Json.text?]

/-- A binding by tags takes the messages of the events whose tags are as it wants them. -/
theorem headersFit_tagArguments (tags : List String) :
    Memory.HeadersFit (tagArguments wanted mode) (Object.ofPairs (tagPairs tags)) ↔
      TagsFit wanted mode tags := by
  have hmode : (mode.bind Json.text? = some "any") ↔ mode = some (.text "any") := by
    cases mode with
    | none => simp
    | some value => simpa using text?_eq_any
  rw [Memory.HeadersFit, get?_tagArguments, TagsFit]
  by_cases hany : mode = some (.text "any")
  · rw [if_pos (hmode.mpr hany)]
    refine Iff.trans ⟨?_, ?_⟩ ⟨fun h => ⟨fun _ => h, fun hne => absurd hany hne⟩, fun h => h.1 hany⟩
    · rintro ⟨argument, hmem, hreserved, hhas⟩
      obtain ⟨tag, htag, rfl⟩ := (mem_tagArguments mode).mp ⟨hmem, hreserved⟩
      exact ⟨tag, htag, hasHeader_tagPairs.mp hhas⟩
    · rintro ⟨tag, htag, hin⟩
      obtain ⟨hmem, hreserved⟩ := (mem_tagArguments mode).mpr ⟨tag, htag, rfl⟩
      exact ⟨_, hmem, hreserved, hasHeader_tagPairs.mpr hin⟩
  · rw [if_neg (mt hmode.mp hany)]
    refine Iff.trans ⟨?_, ?_⟩ ⟨fun h => ⟨fun heq => absurd heq hany, fun _ => h⟩, fun h => h.2 hany⟩
    · intro hall tag htag
      obtain ⟨hmem, hreserved⟩ := (mem_tagArguments mode).mpr ⟨tag, htag, rfl⟩
      exact hasHeader_tagPairs.mp (hall _ hmem hreserved)
    · intro hall argument hmem hreserved
      obtain ⟨tag, htag, rfl⟩ := (mem_tagArguments mode).mp ⟨hmem, hreserved⟩
      exact hasHeader_tagPairs.mpr (hall tag htag)

theorem tagsFit_nil (tags : List String) :
    TagsFit [] mode tags ↔ mode ≠ some (.text "any") := by
  simp [TagsFit]

namespace Memory

variable {m : Memory} {queue : String} {publishing : Publishing}

/-! ## A queue with one binding -/

/-- The queue is there, and the exchange has one binding for it, with these arguments. -/
structure BoundOnce (m : Memory) (queue exchange : String) (arguments : Headers) : Prop where
  there : m.queueExists queue = true
  once : ∃ key, m.bindings.filter (fun b => b.queue == queue && b.exchange == exchange) =
    [⟨queue, exchange, key, arguments⟩]

theorem BoundOnce.boundFor_iff {destination : Destination} {arguments : Headers}
    (h : m.BoundOnce queue destination.exchange arguments) :
    m.BoundFor destination .headers queue ↔ HeadersFit arguments destination.headers := by
  obtain ⟨key, honce⟩ := h.once
  have hmem : ∀ b, b ∈ m.bindings ∧ b.queue = queue ∧ b.exchange = destination.exchange ↔
      b = ⟨queue, destination.exchange, key, arguments⟩ := by
    intro b
    have hin := congrArg (b ∈ ·) honce
    rwa [List.mem_filter, Bool.and_eq_true, beq_iff_eq, beq_iff_eq, List.mem_singleton, eq_iff_iff]
      at hin
  constructor
  · rintro ⟨b, hb, hqueue, hexchange, htakes⟩
    obtain rfl := (hmem b).mp ⟨hb, hqueue, hexchange⟩
    cases htakes with
    | headers hfit => exact hfit
  · intro hfit
    obtain ⟨hb, hqueue, hexchange⟩ := (hmem _).mpr rfl
    exact ⟨_, hb, hqueue, hexchange, .headers hfit⟩

/-- The queue gets one copy of what is published if the condition holds, and none if not. -/
structure Gets (m m' : Memory) (queue : String) (publishing : Publishing) (condition : Prop) :
    Prop where
  one : condition ↔ m'.ready queue = m.ready queue ++ [m.copy publishing]
  none : ¬condition ↔ m'.ready queue = m.ready queue

/-- A message that is accepted is put once into a queue that it is for, and into no other. -/
theorem gets_accept {targets : List String} {kind : ExchangeKind}
    (hroute : m.route publishing.destination = .ok targets)
    (hname : publishing.destination.exchange ≠ "")
    (hkind : m.exchangeKind publishing.destination.exchange = some kind)
    (hq : m.queueExists queue = true) :
    Gets m (m.accept publishing targets) queue publishing
      (m.BoundFor publishing.destination kind queue) := by
  have htargets : targets =
      (boundQueues kind publishing.destination m.bindings).filter m.queueExists := by
    rw [route, if_neg (by simpa using hname), hkind] at hroute
    exact (Except.ok.inj hroute).symm
  have hmem : queue ∈ targets ↔ m.BoundFor publishing.destination kind queue := by
    rw [htargets, List.mem_filter, mem_boundQueues_iff, and_iff_left hq]
  have hnodup : targets.Nodup := htargets ▸ (boundQueues_nodup _ _ _).filter _
  have hready := ready_accept publishing targets hq
  rw [← hmem]
  by_cases hin : queue ∈ targets
  · rw [List.count_eq_one_of_mem hnodup hin] at hready
    exact ⟨iff_of_true hin hready, iff_of_false (not_not_intro hin) (by simp [hready])⟩
  · rw [List.count_eq_zero.mpr hin, List.replicate_zero, List.append_nil] at hready
    exact ⟨iff_of_false hin (by simp [hready]), iff_of_true hin hready⟩

end Memory

end Courier
