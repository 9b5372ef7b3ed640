import Courier.Proofs.Publisher.Calls
import Mathlib.Data.List.Induction

/-!
# What a call has found

A call that is about to see whether there may be more publishers found none idle when it looked last
(`foundNone_after`): only its own turn takes a call further in its look, and only one that sees that
nothing is idle gets there. Meanwhile others may have given some back.
-/

namespace Courier.Pooling

variable {config : PoolConfig} {guarantee : Guarantee} {s : System}

theorem answer_calls (s : System) (i : Nat) (call : Call) (w : Surroundings) (r : Request) :
    (s.answer guarantee i call w r).2.calls = s.calls := by
  cases r with
  | putBack g publisher =>
    simp only [System.answer]
    split <;> rfl
  | _ => rfl

/-- An event adds a call that has not looked yet, or concerns one call. Only one whose turn it is goes
on in its look. -/
theorem step_calls (guarantee : Guarantee) (s : System) (e : Event) :
    (∃ call, (s.step guarantee e).calls = s.calls ++ [call] ∧ call.look = .rests) ∨
      (s.step guarantee e).calls = s.calls ∨
      ∃ i call call', s.calls[i]? = some call ∧ (s.step guarantee e).calls = s.calls.set i call' ∧
        ((∃ w, e = .advance i w) ∨ call'.look = call.look) := by
  cases e with
  | acquire | publish | closePool => exact .inl ⟨_, rfl, rfl⟩
  | advance i w =>
    right
    simp only [System.step, System.advance]
    split
    · exact .inl rfl
    · rename_i call hget
      split
      · exact .inl rfl
      · rename_i r next _
        have hcalls : (s.answer guarantee i call w r).2.calls = s.calls := answer_calls s i call w r
        have set : ∀ {s' : System} (call' : Call), s'.calls = s.calls →
            (s'.setCall i call').calls = s.calls.set i call' := fun call' h => by
          rw [System.setCall, h]
        split <;> rename_i heq <;> rw [heq] at hcalls
        · exact .inl hcalls
        · exact .inr ⟨i, call, _, hget, set _ hcalls, .inl ⟨w, rfl⟩⟩
        · exact .inr ⟨i, call, _, hget, set _ hcalls, .inl ⟨w, rfl⟩⟩
  | drop i publisher =>
    right
    simp only [System.step, System.drop]
    split
    · exact .inl rfl
    · rename_i call hget
      split
      · exact .inr ⟨i, call, _, hget, rfl, .inr rfl⟩
      · exact .inl rfl
  | abandon i =>
    right
    simp only [System.step, System.abandon]
    split
    · exact .inl rfl
    · rename_i call hget
      split
      · exact .inr ⟨i, call, _, hget, rfl, .inr rfl⟩
      · exact .inl rfl

/-- A call whose turn it was is not about to see whether there may be more publishers, unless it has
just found none idle. -/
theorem answer_bare {i : Nat} {call : Call} {w : Surroundings} {r : Request}
    (hrests : (∀ g cancel, r ≠ .acquire g cancel) → call.look = .rests)
    (hbare : ((s.answer guarantee i call w r).1.after call).look = .bare) :
    s.pool.idle = [] ∧ (s.answer guarantee i call w r).2.pool = s.pool := by
  have same : ∀ {P : Prop}, (∀ g cancel, r ≠ .acquire g cancel) → call.look = .bare → P :=
    fun hne hbare => by
      rw [hrests hne] at hbare
      cases hbare
  cases r with
  | acquire g cancel =>
    simp only [System.answer] at hbare ⊢
    have hlooked := Pool.step_looked s.pool (numbered guarantee) w.cancelled w.cancelFirst i call.look
    generalize s.pool.step (numbered guarantee) w.cancelled w.cancelFirst i call.look = stepped
      at hlooked hbare ⊢
    obtain ⟨progress, pool, woken⟩ := stepped
    cases progress with
    | goesOn look =>
      obtain rfl : look = .bare := hbare
      exact hlooked.bare
    | comes attempt =>
      cases attempt with
      | waits =>
        -- only who has lain down waits
        replace hbare : call.look = .bare := hbare
        rw [hbare] at hlooked
        cases hlooked
      | refused | lent => cases hbare
  | putBack g publisher =>
    refine same (fun _ _ h => by cases h) ?_
    simp only [System.answer] at hbare
    split at hbare <;> exact hbare
  | session | drain | shrink | detach => exact same (fun _ _ h => by cases h) hbare

/-- The turn of a call takes it as far as its reaction says, and the pool too. -/
theorem look_of_advance {i : Nat} {call call' : Call} {w : Surroundings} {r : Request}
    {next : Requests.Answer r → Action Result} (h : s.calls[i]? = some call)
    (hrest : call.rest = .ask r next) (h' : (s.advance guarantee i w).calls[i]? = some call') :
    call'.look = ((s.answer guarantee i call w r).1.after call).look ∧
      (s.advance guarantee i w).pool = (s.answer guarantee i call w r).2.pool := by
  have hcalls : (s.answer guarantee i call w r).2.calls = s.calls := answer_calls s i call w r
  rw [advance_eq h hrest] at h' ⊢
  have set : ∀ {s' : System} {call'' : Call}, s'.calls = s.calls →
      (s'.setCall i call'').calls[i]? = some call' → call' = call'' := fun hcalls h' => by
    rw [System.setCall, hcalls, List.getElem?_set_self (List.getElem?_eq_some_iff.mp h).1] at h'
    exact (Option.some.inj h').symm
  generalize s.answer guarantee i call w r = answer at hcalls h' ⊢
  obtain ⟨reaction, s'⟩ := answer
  cases reaction with
  | waits =>
    replace h' : s'.calls[i]? = some call' := h'
    rw [show s'.calls = s.calls from hcalls, h] at h'
    rw [← Option.some.inj h']
    exact ⟨rfl, rfl⟩
  | goesOn call'' =>
    rw [set hcalls h']
    exact ⟨rfl, rfl⟩
  | answered a call'' =>
    rw [set hcalls h']
    exact ⟨rfl, rfl⟩

/-- The call found no publisher idle when it looked last, and left none. -/
def FoundNone (config : PoolConfig) (guarantee : Guarantee) (events : List Event) (i : Nat) : Prop :=
  ∃ before w between, events = before ++ .advance i w :: between ∧
    ((System.new guarantee config).after guarantee before).pool.idle = [] ∧
    ((System.new guarantee config).after guarantee (before ++ [.advance i w])).pool.idle = [] ∧
    ∀ w', .advance i w' ∉ between

theorem FoundNone.concat {events : List Event} {e : Event} {i : Nat}
    (h : FoundNone config guarantee events i) (hne : ∀ w, e ≠ .advance i w) :
    FoundNone config guarantee (events ++ [e]) i := by
  obtain ⟨before, w, between, rfl, hidle, hleft, hbetween⟩ := h
  refine ⟨before, w, between ++ [e], by simp, hidle, hleft, fun w' hmem => ?_⟩
  rcases List.mem_append.mp hmem with hmem | hmem
  · exact hbetween w' hmem
  · exact hne w' (List.mem_singleton.mp hmem).symm

/-- A call whose turn it was has just found none idle, if that is how far it is. -/
theorem idle_of_advance (ht : Tracked s) {i : Nat} {w : Surroundings} {call : Call}
    (hget : (s.advance guarantee i w).calls[i]? = some call) (hbare : call.look = .bare) :
    s.pool.idle = [] ∧ (s.advance guarantee i w).pool.idle = [] := by
  cases hbefore : s.calls[i]? with
  | none =>
    rw [System.advance, hbefore] at hget
    cases hbefore.symm.trans hget
  | some before =>
    obtain ⟨stage, htracks⟩ := ht before (List.mem_of_getElem? hbefore)
    cases hrest : before.rest with
    | done result =>
      rw [System.advance, hbefore] at hget
      simp only [hrest] at hget
      obtain rfl := Option.some.inj (hbefore.symm.trans hget)
      rw [htracks.rests (by simp [hrest])] at hbare
      cases hbare
    | ask r next =>
      obtain ⟨hlook, hpool⟩ := look_of_advance hbefore hrest hget
      have hrests : (∀ g cancel, r ≠ .acquire g cancel) → before.look = .rests := fun hne =>
        htracks.rests fun g cancel next' h => by
          rw [hrest] at h
          cases h
          exact hne g cancel rfl
      obtain ⟨hidle, hsame⟩ := answer_bare hrests (hlook.symm.trans hbare)
      exact ⟨hidle, by rw [hpool, hsame, hidle]⟩

/-- A call keeps what it has found until its next turn. -/
theorem foundNone_after (config : PoolConfig) (guarantee : Guarantee) (events : List Event) {i : Nat}
    {call : Call} (hget : ((System.new guarantee config).after guarantee events).calls[i]? = some call)
    (hbare : call.look = .bare) : FoundNone config guarantee events i := by
  induction events using List.reverseRecOn generalizing call with
  | nil => cases hget
  | append_singleton events e ih =>
    rw [System.after, List.foldl_append] at hget
    change (((System.new guarantee config).after guarantee events).step guarantee e).calls[i]? =
      some call at hget
    have ht : Tracked ((System.new guarantee config).after guarantee events) :=
      (tracked_new config guarantee).after events
    by_cases hturn : ∃ w, e = .advance i w
    · obtain ⟨w, rfl⟩ := hturn
      obtain ⟨hidle, hleft⟩ := idle_of_advance ht hget hbare
      refine ⟨events, w, [], rfl, hidle, ?_, fun _ => List.not_mem_nil⟩
      rw [System.after, List.foldl_append]
      exact hleft
    · rw [not_exists] at hturn
      refine FoundNone.concat ?_ hturn
      rcases step_calls guarantee ((System.new guarantee config).after guarantee events) e with
        ⟨new, hcalls, hrests⟩ | hcalls | ⟨j, before, after, hj, hcalls, hlook⟩
      · rw [hcalls] at hget
        by_cases hlt : i < ((System.new guarantee config).after guarantee events).calls.length
        · rw [List.getElem?_append_left hlt] at hget
          exact ih hget hbare
        · rw [List.getElem?_append_right (Nat.le_of_not_lt hlt)] at hget
          obtain rfl : call = new := List.mem_singleton.mp (List.mem_of_getElem? hget)
          rw [hrests] at hbare
          cases hbare
      · rw [hcalls] at hget
        exact ih hget hbare
      · rw [hcalls] at hget
        by_cases hij : j = i
        · subst hij
          rw [List.getElem?_set_self (List.getElem?_eq_some_iff.mp hj).1] at hget
          obtain rfl := Option.some.inj hget
          have hsame := hlook.resolve_left fun ⟨w, he⟩ => hturn w he
          exact ih hj (hsame.symm.trans hbare)
        · rw [List.getElem?_set_ne hij] at hget
          exact ih hget hbare

/-! ## For whom publishers are made -/

/-- Only a call makes publishers that is about to see whether there may be more. -/
theorem answer_created {i : Nat} {call : Call} {w : Surroundings} {r : Request}
    (hlt : s.pool.created < (s.answer guarantee i call w r).2.pool.created) : call.look = .bare := by
  have same : ∀ {created : Nat}, created = s.pool.created → s.pool.created < created →
      call.look = .bare := fun he hlt => absurd he (Nat.ne_of_gt hlt)
  cases r with
  | acquire g cancel =>
    simp only [System.answer] at hlt
    have htried := (Pool.step_looked s.pool (numbered guarantee) w.cancelled w.cancelFirst i
      call.look).tried
    generalize s.pool.step (numbered guarantee) w.cancelled w.cancelFirst i call.look = stepped
      at htried hlt
    obtain ⟨progress, pool, woken⟩ := stepped
    generalize call.look = look at htried same ⊢
    cases htried with
    | nothing hno hp => exact same hp.created hlt
    | taken hidle hp => exact same hp.created hlt
    | grown => rfl
  | putBack g publisher =>
    simp only [System.answer, Pool.putBack] at hlt
    split at hlt
    · exact same rfl hlt
    · split at hlt <;> exact same rfl hlt
  | drain g =>
    simp only [System.answer, Pool.drain] at hlt
    split at hlt <;> exact same rfl hlt
  | session | shrink | detach => exact same rfl hlt

theorem created_of_step {e : Event} (hlt : s.pool.created < (s.step guarantee e).pool.created) :
    ∃ i w call, e = .advance i w ∧ s.calls[i]? = some call ∧ call.look = .bare := by
  have same : ∀ {created : Nat}, created = s.pool.created → ¬s.pool.created < created :=
    fun he hlt => absurd he (Nat.ne_of_gt hlt)
  cases e with
  | acquire | publish | closePool => exact absurd hlt (same rfl)
  | drop i publisher =>
    simp only [System.step, System.drop] at hlt
    split at hlt
    · exact absurd hlt (same rfl)
    · split at hlt <;> exact absurd hlt (same rfl)
  | abandon i =>
    simp only [System.step, System.abandon] at hlt
    split at hlt
    · exact absurd hlt (same rfl)
    · split at hlt <;> exact absurd hlt (same rfl)
  | advance i w =>
    rw [System.step] at hlt
    cases hget : s.calls[i]? with
    | none =>
      rw [System.advance, hget] at hlt
      exact absurd hlt (same rfl)
    | some call =>
      refine ⟨i, w, call, rfl, hget, ?_⟩
      cases hrest : call.rest with
      | done result =>
        rw [System.advance, hget] at hlt
        simp only [hrest] at hlt
        exact absurd hlt (same rfl)
      | ask r next =>
        refine @answer_created guarantee s i call w r ?_
        rw [advance_eq hget hrest] at hlt
        generalize s.answer guarantee i call w r = answer at hlt ⊢
        obtain ⟨reaction, s'⟩ := answer
        cases reaction <;> exact hlt

end Courier.Pooling
