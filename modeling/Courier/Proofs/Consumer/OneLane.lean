import Courier.Proofs.Consumer.Course
import Courier.Proofs.Memory.InTurn
import Mathlib.Data.List.Induction

/-!
# A queue with one lane

A lane settles what it has got before it looks for more. If one lane gets all that is delivered of a
queue (`TakenBy`), at most one of the deliveries is unsettled (`Good.unsettled_le_one`), and so its
messages are settled in their order, however its handler ends and whatever else befalls the broker
(`inTurn_after`).
-/

namespace Courier.Serving

open Memory (Activity)

variable {s s' : System} {j : Nat} {queue : String}

/-! ## One lane -/

theorem account_of_history {a : Activity} (h : s'.history = s.history ++ [a]) :
    s'.account = s.account.note s.broker a := by
  have append : ∀ (activities : List Activity) (account : Memory.Account) (m : Memory),
      account.noteAll m (activities ++ [a]) =
        (account.noteAll m activities).note (m.after activities) a := by
    intro activities
    induction activities with
    | nil => exact fun _ _ => rfl
    | cons activity activities ih => exact fun account m => ih _ _
  rw [System.account, h]
  exact append s.history {} {}

/-- What is delivered of the queue is delivered to this lane. -/
def TakenBy (s : System) (queue : String) (j : Nat) : Prop :=
  ∀ (i : DeliveryId) (d : Memory.Delivery), s.broker.deliveries[i]? = some d → d.queue = queue →
    s.maker (.delivery i) = some (.lane j)

/-- It was so before. -/
theorem Befell.takenBy {owner : Option Owner} (h : Befell owner s s') (ht : TakenBy s' queue j) : TakenBy s queue j := by
  intro i d hget hqueue
  cases h with
  | none hhistory hmaker =>
    rw [← hmaker]
    exact ht i d (broker_eq hhistory ▸ hget) hqueue
  | one a _ _ hhistory hmaker =>
    obtain ⟨d', hget', hqueue', -⟩ := Memory.delivery_act s.known hget a
    have hthere : s.broker.Has (.delivery i) := (List.getElem?_eq_some_iff.mp hget).1
    have hmine := ht i d' (broker_of_history hhistory ▸ hget') (hqueue'.trans hqueue)
    rwa [hmaker, made_of_has hthere] at hmine

/-- A lane holds one delivery at a time. -/
theorem Good.unsettled_le_one (h : Good none s) (ht : TakenBy s queue j) :
    (s.broker.unsettled queue).length ≤ 1 := by
  rw [Memory.unsettled, List.length_map, ← List.countP_eq_length_filter]
  have unsettled : ∀ (i : DeliveryId) (d : Memory.Delivery), s.broker.deliveries[i]? = some d →
      (d.queue == queue && !d.settled) = true →
      s.maker (.delivery i) = some (.lane j) ∧ ¬s.broker.Settled i := fun i d hget hd => by
    obtain ⟨hqueue, hunsettled⟩ : d.queue = queue ∧ d.settled = false := by simpa using hd
    refine ⟨ht i d hget hqueue, fun h => ?_⟩
    obtain ⟨d', hget', hsettled⟩ := h
    obtain rfl := Option.some.inj (hget.symm.trans hget')
    rw [hunsettled] at hsettled
    cases hsettled
  refine countP_le_one fun i k d d' hi hk hd hd' => ?_
  obtain ⟨hmine, hopen⟩ := unsettled i d hi hd
  obtain ⟨hmine', hopen'⟩ := unsettled k d' hk hd'
  have hlt : j < s.lanes.length := h.owners _ _ hmine
  obtain ⟨place, hgood⟩ := h.lane j _ (List.getElem?_eq_getElem hlt) (Option.some_ne_none _).symm
  -- both are the delivery that the lane holds
  have hat := (hgood.has.deliveries i hmine).resolve_left hopen
  have hat' := (hgood.has.deliveries k hmine').resolve_left hopen'
  exact Option.some.inj (hat.symm.trans hat')

/-- Whatever groups do and whatever befalls their broker: if one lane gets all that is delivered of a
queue, the settlements of the queue are blocks, one for each message in the order in which they were
put into it. A message that is put back is delivered again before any other, and none is begun before
the one before it is gone. -/
theorem inTurn_after (events : List Event) (queue : String) (j : Nat)
    (ht : TakenBy (({} : System).after events) queue j) :
    ∃ blocks tries, Memory.InTurn (({} : System).after events).broker
      (({} : System).after events).account queue blocks tries := by
  induction events using List.reverseRecOn with
  | nil => exact ⟨[], 0, Memory.inTurn_empty queue⟩
  | append_singleton events e ih =>
    rw [System.after, List.foldl_append] at ht ⊢
    change TakenBy ((({} : System).after events).step e) queue j at ht
    change ∃ blocks tries, Memory.InTurn ((({} : System).after events).step e).broker
      ((({} : System).after events).step e).account queue blocks tries
    have hgood := (good_after events).step e
    have hstep := befell_step (good_after events) e
    obtain ⟨blocks, tries, hturn⟩ := ih (hstep.takenBy ht)
    have hone := hgood.unsettled_le_one ht
    cases hstep with
    | none hhistory hmaker =>
      rw [broker_eq hhistory, System.account, hhistory]
      exact ⟨blocks, tries, hturn⟩
    | one a _ _ hhistory hmaker =>
      rw [broker_of_history hhistory] at hone ⊢
      rw [account_of_history hhistory]
      exact hturn.step (System.broker_balanced _) a hone

/-- Answer a handler that it has been asked so often before. -/
def counting (n : Nat) : (r : Handler.Request) → Requests.Answer r
  | .now => n
  | .count _ => n
  | .send _ => .ok ()
  | .sleep _ => ()
  | .note _ => ()
  | .cancelRuns => ()
  | .shutdown => ()

/-- A handler fails at a first message, and succeeds when it is redelivered; meanwhile there is a
second one, at which it fails, too. -/
def retried : List Event :=
  let g : Group := { consumers := [
    { config := { queue := "jobs", retryOnError := true }
      handler := fun _ => do
        let n ← Handling.count 0
        if n = 0 then Handling.fail (.failed "not yet") else Handling.succeed }] }
  let publish : Event := .other (.request (.publish 0 ⟨{ routingKey := "jobs" }, []⟩ {}))
  [.newToken, .newToken, .other (.request .openChannel), .start g 0 1] ++ List.replicate 6 (.run 0) ++
    [publish] ++ List.replicate 6 (.lane 0 (counting 0)) ++ [publish] ++
    List.replicate 3 (.lane 0 (counting 1)) ++ List.replicate 3 (.lane 0 (counting 0))

/-- The first message is gone before the second is delivered, which has been put back once. -/
theorem inTurn_after_retried :
    TakenBy (({} : System).after retried) "jobs" 0 ∧
    (({} : System).after retried).broker.acknowledgements.map (·.outcome) =
      [.nack true, .ack, .nack true] ∧
    ∃ blocks tries, Memory.InTurn (({} : System).after retried).broker
      (({} : System).after retried).account "jobs" blocks tries := by
  have htaken : TakenBy (({} : System).after retried) "jobs" 0 := by
    have hlength : (({} : System).after retried).broker.deliveries.length = 3 := by decide +kernel
    have hmaker : ∀ i < 3, (({} : System).after retried).maker (.delivery i) = some (.lane 0) := by
      decide +kernel
    intro i d hget _
    exact hmaker i (hlength ▸ (List.getElem?_eq_some_iff.mp hget).1)
  exact ⟨htaken, by decide +kernel, inTurn_after retried "jobs" 0 htaken⟩

end Courier.Serving
