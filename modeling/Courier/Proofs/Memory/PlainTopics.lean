import Courier.Proofs.Memory.Activities
import Courier.Proofs.Memory.Topics

/-!
# Patterns without wildcards

A pattern none of whose words is a wildcard (`Plain`) is matched by the words that it is made of and
by no others (`covers_plain_iff`), and words tell the text that they were cut from
(`splitWords_injective`). So it is matched by itself alone, as the key of a direct binding is, and a
direct exchange with such bindings routes as before when it is made a topic exchange.

There is one exception. The empty pattern is one empty word, but the empty key has no words at all, so
nothing matches this pattern (`emptyKey_unrouted`). `plainTopics_direct` says what holds with it.
-/

namespace Courier.Memory

variable {m : Memory} {name pattern key queue : String} {words : List (List Char)}
  {destination : Destination} {bindings : List Binding}

/-- None of the words of the pattern is a wildcard. -/
def Plain (pattern : String) : Prop :=
  ∀ word ∈ pattern.toList.splitOn '.', word ≠ ['*'] ∧ word ≠ ['#']

instance (pattern : String) : Decidable (Plain pattern) :=
  inferInstanceAs (Decidable (∀ word ∈ pattern.toList.splitOn '.', word ≠ ['*'] ∧ word ≠ ['#']))

/-! ## Matching -/

/-- Words that are no wildcards stand for themselves. -/
theorem covers_plain_iff {more : List (List Char)}
    (h : ∀ word ∈ words, word ≠ ['*'] ∧ word ≠ ['#']) : Covers words more ↔ words = more := by
  induction words generalizing more with
  | nil => rw [covers_nil_iff, eq_comm]
  | cons word words ih =>
    obtain ⟨⟨hone, hmany⟩, hrest⟩ := List.forall_mem_cons.mp h
    simp only [covers_cons_iff, standsFor_itself_iff hmany hone, ih hrest]
    constructor
    · rintro ⟨_, _, rfl, rfl, rfl⟩
      rfl
    · rintro rfl
      exact ⟨[word], words, rfl, rfl, rfl⟩

/-- No two texts have the same words. -/
theorem splitWords_injective {cs ds : List Char} (h : splitWords cs = splitWords ds) : cs = ds := by
  rw [← intercalate_splitWords cs, h, intercalate_splitWords]

/-- A pattern has the words of a key if the two are equal and not empty. -/
theorem patternWords_eq_keyWords_iff (pattern key : String) :
    patternWords pattern = keyWords key ↔ pattern = key ∧ key ≠ "" := by
  unfold patternWords keyWords
  by_cases hkey : key = ""
  · subst hkey
    simpa using splitWords_ne_nil pattern.toList
  · rw [if_neg (by simpa using hkey)]
    exact ⟨fun h => ⟨String.toList_inj.mp (splitWords_injective h), hkey⟩, fun h => h.1 ▸ rfl⟩

theorem topicMatches_plain_iff (h : Plain pattern) (key : String) :
    topicMatches pattern key = true ↔ pattern = key ∧ key ≠ "" := by
  have hwords : ∀ word ∈ patternWords pattern, word ≠ ['*'] ∧ word ≠ ['#'] := by
    rwa [patternWords, splitWords_eq_splitOn]
  rw [topicMatches, wordsMatch_iff, covers_plain_iff hwords, patternWords_eq_keyWords_iff]

/-! ## Routing -/

/-- The broker with the exchange of this name being of another kind. -/
def withKind (m : Memory) (name : String) (kind : ExchangeKind) : Memory :=
  { m with exchanges := m.exchanges.map fun (n, k) => if n = name then (n, kind) else (n, k) }

theorem exchangeKind_withKind (m : Memory) (name : String) (kind : ExchangeKind) (other : String) :
    (m.withKind name kind).exchangeKind other =
      if other = name then (m.exchangeKind other).map fun _ => kind else m.exchangeKind other :=
  lookup_map_at m.exchanges name (fun _ => kind) other

/-- Kinds by which the same bindings of an exchange match select the same queues. -/
theorem boundQueues_congr {kind kind' : ExchangeKind}
    (h : ∀ b ∈ bindings, b.exchange = destination.exchange →
      b.matches kind destination = b.matches kind' destination) :
    boundQueues kind destination bindings = boundQueues kind' destination bindings := by
  refine List.foldl_ext _ _ _ fun names b hb => ?_
  by_cases hexchange : b.exchange = destination.exchange
  · rw [h b hb hexchange]
  · rw [beq_eq_false_iff_ne.mpr hexchange]
    rfl

/-- The bindings of an exchange have no wildcards. -/
def PlainAt (m : Memory) (name : String) : Prop :=
  ∀ b ∈ m.bindings, b.exchange = name → Plain b.routingKey

instance (m : Memory) (name : String) : Decidable (m.PlainAt name) :=
  inferInstanceAs (Decidable (∀ b ∈ m.bindings, b.exchange = name → Plain b.routingKey))

/-- Behind a topic exchange, a binding without wildcards takes what it would behind a direct one. -/
theorem boundQueues_topic (h : m.PlainAt destination.exchange)
    (hkey : destination.routingKey ≠ "") :
    boundQueues .topic destination m.bindings = boundQueues .direct destination m.bindings := by
  refine boundQueues_congr fun b hb hexchange => Bool.eq_iff_iff.mpr ?_
  rw [Binding.matches, Binding.matches, topicMatches_plain_iff (h b hb hexchange), beq_iff_eq]
  exact and_iff_left hkey

/-- It takes nothing with an empty key. -/
theorem boundQueues_topic_empty (h : m.PlainAt destination.exchange)
    (hkey : destination.routingKey = "") : boundQueues .topic destination m.bindings = [] := by
  refine List.eq_nil_iff_forall_not_mem.mpr fun queue hmem => ?_
  obtain ⟨b, hb, -, hexchange, hmatch⟩ := mem_boundQueues.mp hmem
  rw [Binding.matches, topicMatches_plain_iff (h b hb hexchange)] at hmatch
  exact hmatch.2 hkey

/-- The exchange of another kind takes no part in what goes to others. -/
theorem route_withKind_of_ne (h : destination.exchange = "" ∨ destination.exchange ≠ name)
    (kind : ExchangeKind) : (m.withKind name kind).route destination = m.route destination := by
  unfold route
  rcases h with h | h
  · rw [h]
    rfl
  · rw [exchangeKind_withKind, if_neg h]
    rfl

theorem route_withKind_topic (h : m.PlainAt destination.exchange) (hname : destination.exchange ≠ "")
    (hkind : m.exchangeKind destination.exchange = some .direct) :
    (m.withKind destination.exchange .topic).route destination =
      if destination.routingKey = "" then .ok [] else m.route destination := by
  have hnamed : ¬destination.exchange.isEmpty = true := by simpa using hname
  have htopic : (m.withKind destination.exchange .topic).route destination =
      .ok ((boundQueues .topic destination m.bindings).filter m.queueExists) := by
    rw [route, if_neg hnamed, exchangeKind_withKind, if_pos rfl, hkind]
    rfl
  rw [htopic]
  split
  · rename_i hkey
    rw [boundQueues_topic_empty h hkey]
    rfl
  · rename_i hkey
    rw [boundQueues_topic h hkey, route, if_neg hnamed, hkind]

/-- A topic binding without wildcards matches its own key, and no other, unless this key is empty. A
direct exchange with such bindings that is made a topic exchange routes every message as it did, but
that it routes none with an empty key. -/
theorem plainTopics_direct (hplain : Plain pattern) (key : String)
    (hkind : m.exchangeKind name = some .direct) (h : m.PlainAt name) (destination : Destination) :
    (topicMatches pattern key = true ↔ pattern = key ∧ key ≠ "") ∧
    (m.withKind name .topic).route destination =
      if destination.exchange = name ∧ name ≠ "" ∧ destination.routingKey = "" then .ok []
      else m.route destination := by
  refine ⟨topicMatches_plain_iff hplain key, ?_⟩
  by_cases hhere : destination.exchange = name ∧ name ≠ ""
  · obtain ⟨rfl, hname⟩ := hhere
    simpa [hname] using route_withKind_topic h hname hkind
  · rw [if_neg fun hcase => hhere ⟨hcase.1, hcase.2.1⟩]
    refine route_withKind_of_ne ?_ .topic
    by_cases hexchange : destination.exchange = name
    · exact .inl (hexchange.trans (Decidable.byContradiction fun hname => hhere ⟨hexchange, hname⟩))
    · exact .inr hexchange

/-- A direct exchange and two queues, one of which is bound with points only and one with
nothing. -/
def pointed : Memory where
  exchanges := [("events", .direct)]
  bindings := [⟨"points", "events", "..", []⟩, ⟨"all", "events", "", []⟩]
  queues := [("points", { declaration := { name := "points" } }),
    ("all", { declaration := { name := "all" } })]

/-- Empty words are words like others. -/
theorem plainTopics_direct_points :
    Plain ".." ∧ pointed.exchangeKind "events" = some .direct ∧ pointed.PlainAt "events" ∧
    (topicMatches ".." ".." = true ↔ ".." = ".." ∧ ".." ≠ "") ∧
    (pointed.withKind "events" .topic).route { exchange := "events", routingKey := ".." } =
      pointed.route { exchange := "events", routingKey := ".." } :=
  ⟨by decide, rfl, by decide,
    plainTopics_direct (by decide) ".." rfl (by decide)
      { exchange := "events", routingKey := ".." }⟩

/-- The empty pattern does not match the empty key, which is equal to it: a queue that is bound with
the empty key gets nothing any more when its direct exchange is made a topic exchange. -/
theorem emptyKey_unrouted :
    Plain "" ∧ ¬(topicMatches "" "" = true ↔ "" = "") ∧ pointed.PlainAt "events" ∧
    pointed.route { exchange := "events" } = .ok ["all"] ∧
    (pointed.withKind "events" .topic).route { exchange := "events" } = .ok [] :=
  ⟨by decide, by decide, by decide, rfl, rfl⟩

end Courier.Memory
