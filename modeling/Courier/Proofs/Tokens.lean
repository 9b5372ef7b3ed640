import Courier.Cancellation

/-!
# What waits for a token

A task that waits for a token which has not been cancelled is `Listening`. Nothing but its own
`unregister` and the cancelling of the token ends that, and the cancelling wakes the task
(`Fired`, `Fired.listening`). A token that has been cancelled stays so.

A child of a token is `Linked` to it: it is cancelled as soon as the token is. That lasts until the
child is let go of, as long as every child knows its parent (`Proper`). It is also `Sheltered` by the
token: as long as nobody cancels it by itself, it is cancelled only with the token.
-/

namespace Courier.Tokens

variable {t t' t'' : Tokens} {id other : TokenId} {task : Nat}

/-- Is there such a token? -/
def Exists (t : Tokens) (id : TokenId) : Prop :=
  id < t.tokens.length

/-- The token has not been cancelled, and will wake the task when it is. -/
def Listening (t : Tokens) (id : TokenId) (task : Nat) : Prop :=
  ∃ token, t.tokens[id]? = some token ∧ token.cancelled = false ∧ task ∈ token.waiting

theorem isCancelled_iff :
    t.isCancelled id = true ↔ ∃ token, t.tokens[id]? = some token ∧ token.cancelled = true := by
  unfold isCancelled
  cases h : t.tokens[id]? with
  | none => simp
  | some token => simp

theorem Listening.live (h : t.Listening id task) : t.isCancelled id = false := by
  obtain ⟨token, hget, hlive, -⟩ := h
  rw [isCancelled, hget]
  exact hlive

/-- What is in a place of the list after one token was changed. -/
theorem modify_eq_some {f : Token → Token} {token' : Token} :
    (t.modify id f).tokens[other]? = some token' ↔
      ∃ token, t.tokens[other]? = some token ∧ token' = if id = other then f token else token := by
  rw [modify, List.getElem?_modify]
  cases t.tokens[other]? with
  | none => simp
  | some token => simp [eq_comm]

/-! ## Waiting -/

theorem isCancelled_modify {f : Token → Token} (hf : ∀ token, (f token).cancelled = token.cancelled)
    (t : Tokens) (id other : TokenId) : (t.modify id f).isCancelled other = t.isCancelled other := by
  unfold isCancelled modify
  rw [List.getElem?_modify]
  cases t.tokens[other]? with
  | none => rfl
  | some token =>
    by_cases heq : id = other
    · simp [heq, hf]
    · simp [heq]

@[simp] theorem isCancelled_register (t : Tokens) (id other : TokenId) (task : Nat) :
    (t.register id task).isCancelled other = t.isCancelled other :=
  isCancelled_modify (fun token => by split <;> rfl) t id other

@[simp] theorem isCancelled_unregister (t : Tokens) (id other : TokenId) (task : Nat) :
    (t.unregister id task).isCancelled other = t.isCancelled other :=
  isCancelled_modify (f := fun token => { token with waiting := token.waiting.erase task })
    (fun _ => rfl) t id other

@[simp] theorem length_modify (t : Tokens) (id : TokenId) (f : Token → Token) :
    (t.modify id f).tokens.length = t.tokens.length :=
  List.length_modify ..

theorem Exists.register (h : t.Exists other) (id : TokenId) (task : Nat) :
    (t.register id task).Exists other :=
  Nat.lt_of_lt_of_eq h (length_modify ..).symm

theorem Exists.unregister (h : t.Exists other) (id : TokenId) (task : Nat) :
    (t.unregister id task).Exists other :=
  Nat.lt_of_lt_of_eq h (length_modify ..).symm

theorem listening_register (hid : t.Exists id) (hlive : t.isCancelled id = false) (task : Nat) :
    (t.register id task).Listening id task := by
  have hget : t.tokens[id]? = some t.tokens[id] := List.getElem?_eq_getElem hid
  have hc : t.tokens[id].cancelled = false := by
    rw [isCancelled, hget] at hlive
    exact hlive
  refine ⟨_, modify_eq_some.mpr ⟨_, hget, rfl⟩, ?_⟩
  rw [if_pos rfl]
  split
  · rename_i hwaits
    exact ⟨hc, List.contains_iff_mem.mp hwaits⟩
  · exact ⟨hc, List.mem_append_right _ (List.mem_singleton_self task)⟩

theorem Listening.register (h : t.Listening id task) (other : TokenId) (another : Nat) :
    (t.register other another).Listening id task := by
  obtain ⟨token, hget, hlive, hmem⟩ := h
  refine ⟨_, modify_eq_some.mpr ⟨token, hget, rfl⟩, ?_⟩
  split
  · split
    · exact ⟨hlive, hmem⟩
    · exact ⟨hlive, List.mem_append_left _ hmem⟩
  · exact ⟨hlive, hmem⟩

theorem Listening.unregister {another : Nat} (h : t.Listening id task) (other : TokenId)
    (hne : task ≠ another) : (t.unregister other another).Listening id task := by
  obtain ⟨token, hget, hlive, hmem⟩ := h
  refine ⟨_, modify_eq_some.mpr ⟨token, hget, rfl⟩, ?_⟩
  split
  · exact ⟨hlive, (List.mem_erase_of_ne hne).mpr hmem⟩
  · exact ⟨hlive, hmem⟩

/-- A token more, with what that changes in a token that there is. -/
theorem Listening.of_grown (h : t.Listening id task)
    (hgrown : ∀ token : Token, t.tokens[id]? = some token →
      ∃ token' : Token, t'.tokens[id]? = some token' ∧
        token'.cancelled = token.cancelled ∧ token'.waiting = token.waiting) :
    t'.Listening id task := by
  obtain ⟨token, hget, hlive, hmem⟩ := h
  obtain ⟨token', hget', hc, hw⟩ := hgrown token hget
  exact ⟨token', hget', hc ▸ hlive, hw ▸ hmem⟩

/-! ## Cancelling -/

/-- Some tokens have been cancelled, and who waited for them has been woken. -/
structure Fired (t t' : Tokens) : Prop where
  length : t'.tokens.length = t.tokens.length
  each : ∀ (id : TokenId) (token : Token), t.tokens[id]? = some token →
    ∃ token' : Token, t'.tokens[id]? = some token' ∧
      (token' = token ∨ token'.cancelled = true ∧ ∀ task ∈ token.waiting, task ∈ t'.woken)
  woken : ∀ task ∈ t.woken, task ∈ t'.woken

theorem Fired.refl (t : Tokens) : Fired t t :=
  ⟨rfl, fun _ token hget => ⟨token, hget, .inl rfl⟩, fun _ h => h⟩

theorem Fired.trans (h : Fired t t') (h' : Fired t' t'') : Fired t t'' := by
  refine ⟨h'.length.trans h.length, fun id token hget => ?_, fun task hmem =>
    h'.woken task (h.woken task hmem)⟩
  obtain ⟨token', hget', hfirst⟩ := h.each id token hget
  obtain ⟨token'', hget'', hsecond⟩ := h'.each id token' hget'
  refine ⟨token'', hget'', ?_⟩
  rcases hfirst with rfl | ⟨hc, hwoken⟩
  · exact hsecond
  · refine .inr ⟨?_, fun task hmem => h'.woken task (hwoken task hmem)⟩
    rcases hsecond with rfl | ⟨hc', -⟩
    · exact hc
    · exact hc'

theorem fired_cancelAlone (t : Tokens) (id : TokenId) : Fired t (t.cancelAlone id) := by
  unfold cancelAlone
  split
  · exact .refl t
  · rename_i token hget
    split
    · exact .refl t
    · refine ⟨length_modify .., fun other token' hget' => ?_, fun task hmem =>
        List.mem_append_left _ hmem⟩
      refine ⟨_, modify_eq_some.mpr ⟨token', hget', rfl⟩, ?_⟩
      split
      · rename_i heq
        subst heq
        rw [hget] at hget'
        cases hget'
        exact .inr ⟨rfl, fun task hmem => List.mem_append_right _ hmem⟩
      · exact .inl rfl

theorem fired_cancelEach (ids : List TokenId) (t : Tokens) : Fired t (ids.foldl cancelAlone t) := by
  induction ids generalizing t with
  | nil => exact .refl t
  | cons id ids ih => exact (fired_cancelAlone t id).trans (ih _)

theorem fired_cancel (t : Tokens) (id : TokenId) : Fired t (t.cancel id) := by
  unfold cancel
  split
  · exact .refl t
  · split
    · exact .refl t
    · exact (fired_cancelEach _ t).trans (fired_cancelAlone _ id)

theorem Fired.isCancelled (h : Fired t t') (hc : t.isCancelled id = true) :
    t'.isCancelled id = true := by
  rw [isCancelled_iff] at hc ⊢
  obtain ⟨token, hget, hc⟩ := hc
  obtain ⟨token', hget', rfl | ⟨hc', -⟩⟩ := h.each id token hget
  · exact ⟨token', hget', hc⟩
  · exact ⟨token', hget', hc'⟩

/-- Who waits for a token goes on waiting, or is woken. -/
theorem Fired.listening (h : Fired t t') (hl : t.Listening id task) :
    t'.Listening id task ∨ task ∈ t'.woken := by
  obtain ⟨token, hget, hlive, hmem⟩ := hl
  obtain ⟨token', hget', rfl | ⟨-, hwoken⟩⟩ := h.each id token hget
  · exact .inl ⟨token', hget', hlive, hmem⟩
  · exact .inr (hwoken task hmem)

theorem isCancelled_cancelAlone_self (h : t.Exists id) :
    (t.cancelAlone id).isCancelled id = true := by
  have hget : t.tokens[id]? = some t.tokens[id] := List.getElem?_eq_getElem h
  unfold cancelAlone
  rw [hget]
  dsimp only
  split
  · rename_i hc
    exact isCancelled_iff.mpr ⟨_, hget, hc⟩
  · refine isCancelled_iff.mpr ⟨_, modify_eq_some.mpr ⟨_, hget, rfl⟩, ?_⟩
    rw [if_pos rfl]

theorem isCancelled_cancel_self (h : t.Exists id) : (t.cancel id).isCancelled id = true := by
  have hget : t.tokens[id]? = some t.tokens[id] := List.getElem?_eq_getElem h
  unfold cancel
  rw [hget]
  dsimp only
  split
  · rename_i hc
    exact isCancelled_iff.mpr ⟨_, hget, hc⟩
  · refine isCancelled_cancelAlone_self ?_
    rw [Exists, (fired_cancelEach _ t).length]
    exact h

/-- To cancel a token again does nothing. -/
theorem cancel_of_isCancelled (h : t.isCancelled id = true) : t.cancel id = t := by
  obtain ⟨token, hget, hc⟩ := isCancelled_iff.mp h
  rw [cancel, hget]
  exact if_pos hc

/-! ## More tokens -/

/-- Tokens have been made, and those that there were have at most got children. -/
structure Grown (t t' : Tokens) : Prop where
  length : t.tokens.length ≤ t'.tokens.length
  each : ∀ (id : TokenId) (token : Token), t.tokens[id]? = some token →
    ∃ token' : Token, t'.tokens[id]? = some token' ∧
      token'.cancelled = token.cancelled ∧ token'.waiting = token.waiting

theorem grown_add (t : Tokens) : Grown t t.add.2 := by
  refine ⟨?_, fun id token hget => ⟨token, ?_, rfl, rfl⟩⟩
  · simp [add]
  · have hlt : id < t.tokens.length := (List.getElem?_eq_some_iff.mp hget).1
    rw [add]
    simpa only [List.getElem?_append_left hlt] using hget

theorem grown_addChild (t : Tokens) (parent : TokenId) : Grown t (t.addChild parent).2 := by
  unfold addChild
  split
  · refine ⟨by simp, fun id token hget => ⟨token, ?_, rfl, rfl⟩⟩
    have hlt : id < t.tokens.length := (List.getElem?_eq_some_iff.mp hget).1
    simpa only [List.getElem?_append_left hlt] using hget
  · refine ⟨by simp, fun id token hget => ?_⟩
    have hlt : id < t.tokens.length := (List.getElem?_eq_some_iff.mp hget).1
    have hget' : (t.tokens ++ [({ parent := some parent } : Token)])[id]? = some token := by
      rwa [List.getElem?_append_left hlt]
    refine ⟨_, modify_eq_some.mpr ⟨token, hget', rfl⟩, ?_⟩
    split <;> exact ⟨rfl, rfl⟩

theorem Grown.listening (h : Grown t t') (hl : t.Listening id task) : t'.Listening id task :=
  hl.of_grown (h.each id)

theorem Grown.isCancelled (h : Grown t t') (hid : t.Exists id) :
    t'.isCancelled id = t.isCancelled id := by
  have hget : t.tokens[id]? = some t.tokens[id] := List.getElem?_eq_getElem hid
  obtain ⟨token', hget', hc, -⟩ := h.each id _ hget
  rw [Tokens.isCancelled, Tokens.isCancelled, hget, hget']
  exact hc

/-! ## Children -/

/-- A child knows whose child it is. -/
def Proper (t : Tokens) : Prop :=
  ∀ (parent : TokenId) (token : Token), t.tokens[parent]? = some token → ∀ child ∈ token.children,
    ∃ token' : Token, t.tokens[child]? = some token' ∧ token'.parent = some parent

/-- The token is cancelled, or is among the children of the other one, which is live and no child. -/
def Linked (t : Tokens) (parent child : TokenId) : Prop :=
  t.isCancelled child = true ∨ ∃ token, t.tokens[parent]? = some token ∧ token.cancelled = false ∧
    token.parent = none ∧ child ∈ token.children

/-- A child is cancelled with its parent. -/
theorem Linked.isCancelled {parent child : TokenId} (h : t.Linked parent child)
    (hc : t.isCancelled parent = true) : t.isCancelled child = true := by
  rcases h with h | ⟨token, hget, hlive, -⟩
  · exact h
  · rw [Tokens.isCancelled, hget] at hc
    exact absurd hc (by simp [hlive])

theorem proper_empty : Proper {} :=
  fun _ _ hget => by cases hget

/-! ### Tokens of which only the waiting changes -/

/-- Only who waits has changed. -/
def Similar (t t' : Tokens) : Prop :=
  ∀ id : TokenId, t'.tokens[id]?.map (fun token : Token =>
      (token.cancelled, token.parent, token.children)) =
    t.tokens[id]?.map fun token : Token => (token.cancelled, token.parent, token.children)

theorem Similar.trans (h : Similar t t') (h' : Similar t' t'') : Similar t t'' :=
  fun id => (h' id).trans (h id)

theorem Similar.symm (h : Similar t t') : Similar t' t :=
  fun id => (h id).symm

theorem Similar.get (h : Similar t t') {token : Token} (hget : t.tokens[id]? = some token) :
    ∃ token' : Token, t'.tokens[id]? = some token' ∧ token'.cancelled = token.cancelled ∧
      token'.parent = token.parent ∧ token'.children = token.children := by
  have hid := h id
  rw [hget, Option.map_some, Option.map_eq_some_iff] at hid
  obtain ⟨token', hget', heq⟩ := hid
  simp only [Prod.mk.injEq] at heq
  exact ⟨token', hget', heq⟩

theorem similar_modify {f : Token → Token}
    (hf : ∀ token, (f token).cancelled = token.cancelled ∧ (f token).parent = token.parent ∧
      (f token).children = token.children) (t : Tokens) (id : TokenId) : Similar t (t.modify id f) := by
  intro other
  rw [modify, List.getElem?_modify]
  cases t.tokens[other]? with
  | none => rfl
  | some token =>
    obtain ⟨hc, hp, hch⟩ := hf token
    by_cases heq : id = other <;> simp [heq, hc, hp, hch]

theorem similar_register (t : Tokens) (id : TokenId) (task : Nat) : Similar t (t.register id task) :=
  similar_modify (fun token => by split <;> exact ⟨rfl, rfl, rfl⟩) t id

theorem similar_unregister (t : Tokens) (id : TokenId) (task : Nat) :
    Similar t (t.unregister id task) :=
  similar_modify (f := fun token => { token with waiting := token.waiting.erase task })
    (fun _ => ⟨rfl, rfl, rfl⟩) t id

theorem similar_foldl {f : Tokens → TokenId → Tokens} (hf : ∀ t id, Similar t (f t id))
    (ids : List TokenId) (t : Tokens) : Similar t (ids.foldl f t) := by
  induction ids generalizing t with
  | nil => exact fun _ => rfl
  | cons id ids ih => exact (hf t id).trans (ih _)

theorem Similar.isCancelled (h : Similar t t') (id : TokenId) :
    t'.isCancelled id = t.isCancelled id := by
  cases hget : t.tokens[id]? with
  | none =>
    have hid := h id
    rw [hget, Option.map_none, Option.map_eq_none_iff] at hid
    rw [Tokens.isCancelled, Tokens.isCancelled, hget, hid]
  | some token =>
    obtain ⟨token', hget', hc, -⟩ := h.get hget
    rw [Tokens.isCancelled, Tokens.isCancelled, hget, hget']
    exact hc

theorem Similar.proper (h : Similar t t') (hp : t.Proper) : t'.Proper := by
  intro parent token' hget' child hchild
  obtain ⟨token, hget, -, -, hch⟩ := h.symm.get hget'
  obtain ⟨other, hother, hparent⟩ := hp parent token hget child (hch ▸ hchild)
  obtain ⟨other', hother', -, hparent', -⟩ := h.get hother
  exact ⟨other', hother', hparent'.trans hparent⟩

theorem Similar.linked {parent child : TokenId} (h : Similar t t') (hl : t.Linked parent child) :
    t'.Linked parent child := by
  rcases hl with hc | ⟨token, hget, hlive, hroot, hchild⟩
  · exact .inl ((h.isCancelled child).trans hc)
  · obtain ⟨token', hget', hc, hp, hch⟩ := h.get hget
    exact .inr ⟨token', hget', hc.trans hlive, hp.trans hroot, hch ▸ hchild⟩

/-! ### More tokens -/

theorem getElem?_append_token {more : List Token} {token : Token} (hget : t.tokens[id]? = some token) :
    (t.tokens ++ more)[id]? = some token := by
  rw [List.getElem?_append_left (List.getElem?_eq_some_iff.mp hget).1, hget]

theorem Linked.of_grown {parent child : TokenId} (h : t.Linked parent child)
    (hgrown : ∀ (id : TokenId) (token : Token), t.tokens[id]? = some token →
      ∃ token' : Token, t'.tokens[id]? = some token' ∧ token'.cancelled = token.cancelled ∧
        token'.parent = token.parent ∧ ∀ x ∈ token.children, x ∈ token'.children) :
    t'.Linked parent child := by
  rcases h with hc | ⟨token, hget, hlive, hroot, hchild⟩
  · obtain ⟨token, hget, hc⟩ := isCancelled_iff.mp hc
    obtain ⟨token', hget', hc', -⟩ := hgrown child token hget
    exact .inl (isCancelled_iff.mpr ⟨token', hget', hc'.trans hc⟩)
  · obtain ⟨token', hget', hc, hp, hch⟩ := hgrown parent token hget
    exact .inr ⟨token', hget', hc.trans hlive, hp.trans hroot, hch child hchild⟩

/-- One more token, which is nobody's child. -/
theorem Proper.append (h : t.Proper) {token : Token} (hnone : token.children = []) (woken : List Nat) :
    Proper ⟨t.tokens ++ [token], woken⟩ := by
  intro parent token' hget child hchild
  rw [List.getElem?_append] at hget
  split at hget
  · obtain ⟨other, hother, hparent⟩ := h parent token' hget child hchild
    exact ⟨other, getElem?_append_token hother, hparent⟩
  · rw [List.getElem?_singleton] at hget
    split at hget <;> cases hget
    rw [hnone] at hchild
    cases hchild

theorem Proper.addChild (h : t.Proper) (parent : TokenId) : (t.addChild parent).2.Proper := by
  unfold Tokens.addChild
  split
  · exact h.append rfl t.woken
  · have hnew : (t.tokens ++ [({ parent := some parent } : Token)])[t.tokens.length]? =
        some { parent := some parent } := by simp
    have happend : Proper ⟨t.tokens ++ [{ parent := some parent }], t.woken⟩ := h.append rfl t.woken
    intro other token' hget child hchild
    obtain ⟨token, hget', rfl⟩ := modify_eq_some.mp hget
    have hkeep : ∀ {id : TokenId} {token : Token},
        (t.tokens ++ [({ parent := some parent } : Token)])[id]? = some token →
        ∃ token' : Token, (modify ⟨t.tokens ++ [{ parent := some parent }], t.woken⟩ parent fun token =>
          { token with children := token.children ++ [t.tokens.length] }).tokens[id]? = some token' ∧
          token'.parent = token.parent := fun {id token} hget => by
      refine ⟨_, modify_eq_some.mpr ⟨token, hget, rfl⟩, ?_⟩
      split <;> rfl
    have hold : child ∈ token.children →
        ∃ token', (modify ⟨t.tokens ++ [{ parent := some parent }], t.woken⟩ parent fun token =>
          { token with children := token.children ++ [t.tokens.length] }).tokens[child]? = some token' ∧
          token'.parent = some other := fun hchild => by
      obtain ⟨found, hfound, hparent⟩ := happend other token hget' child hchild
      obtain ⟨found', hfound', hparent'⟩ := hkeep hfound
      exact ⟨found', hfound', hparent'.trans hparent⟩
    split at hchild
    · rename_i heq
      subst heq
      rcases List.mem_append.mp hchild with hchild | hchild
      · exact hold hchild
      · rw [List.mem_singleton.mp hchild]
        exact hkeep hnew
    · exact hold hchild

/-- What there was is there, with the children that it had. -/
theorem grown_children_addChild (t : Tokens) (parent : TokenId) :
    ∀ (id : TokenId) (token : Token), t.tokens[id]? = some token →
      ∃ token' : Token, (t.addChild parent).2.tokens[id]? = some token' ∧
        token'.cancelled = token.cancelled ∧ token'.parent = token.parent ∧
        ∀ x ∈ token.children, x ∈ token'.children := by
  intro id token hget
  unfold addChild
  split
  · exact ⟨token, getElem?_append_token hget, rfl, rfl, fun _ hx => hx⟩
  · refine ⟨_, modify_eq_some.mpr ⟨token, getElem?_append_token hget, rfl⟩, ?_⟩
    split
    · exact ⟨rfl, rfl, fun x hx => List.mem_append_left _ hx⟩
    · exact ⟨rfl, rfl, fun _ hx => hx⟩

/-- A token that is made as the child of one that is no child itself. -/
theorem linked_addChild {parent : TokenId} {token : Token} (hget : t.tokens[parent]? = some token)
    (hroot : token.parent = none) :
    (t.addChild parent).2.Linked parent (t.addChild parent).1 := by
  cases hc : t.isCancelled parent with
  | true =>
    have hnew : (t.tokens ++ [({ cancelled := true } : Token)])[t.tokens.length]? =
        some { cancelled := true } := by simp
    simp only [addChild, hc, if_true]
    exact .inl (isCancelled_iff.mpr ⟨_, hnew, rfl⟩)
  | false =>
    have hlive : token.cancelled = false := by
      rw [isCancelled, hget] at hc
      exact hc
    simp only [addChild, hc, Bool.false_eq_true, if_false]
    refine .inr ⟨_, modify_eq_some.mpr ⟨token, getElem?_append_token hget, rfl⟩, ?_⟩
    rw [if_pos rfl]
    exact ⟨hlive, hroot, List.mem_append_right _ (List.mem_singleton_self _)⟩

/-! ### Cancelling -/

theorem cancelAlone_get {token : Token} (hget : t.tokens[other]? = some token) (id : TokenId) :
    ∃ token' : Token, (t.cancelAlone id).tokens[other]? = some token' ∧
      token'.parent = token.parent ∧ (∀ x ∈ token'.children, x ∈ token.children) ∧
      (other ≠ id → token' = token) := by
  unfold cancelAlone
  split
  · exact ⟨token, hget, rfl, fun _ hx => hx, fun _ => rfl⟩
  · split
    · exact ⟨token, hget, rfl, fun _ hx => hx, fun _ => rfl⟩
    · refine ⟨_, modify_eq_some.mpr ⟨token, hget, rfl⟩, ?_⟩
      split
      · rename_i heq
        exact ⟨rfl, nofun, fun hne => absurd heq.symm hne⟩
      · exact ⟨rfl, fun _ hx => hx, fun _ => rfl⟩

theorem exists_of_cancelAlone {token' : Token}
    (hget : (t.cancelAlone id).tokens[other]? = some token') :
    ∃ token, t.tokens[other]? = some token := by
  have hlt : other < (t.cancelAlone id).tokens.length := (List.getElem?_eq_some_iff.mp hget).1
  rw [(fired_cancelAlone t id).length] at hlt
  exact ⟨_, List.getElem?_eq_getElem hlt⟩

theorem Proper.cancelAlone (h : t.Proper) (id : TokenId) : (t.cancelAlone id).Proper := by
  intro parent token' hget' child hchild
  obtain ⟨token, hget⟩ := exists_of_cancelAlone hget'
  obtain ⟨token'', hget'', -, hsub, -⟩ := cancelAlone_get hget id
  obtain rfl := Option.some.inj (hget'.symm.trans hget'')
  obtain ⟨other, hother, hparent⟩ := h parent token hget child (hsub child hchild)
  obtain ⟨other', hother', hparent', -⟩ := cancelAlone_get hother id
  exact ⟨other', hother', hparent'.trans hparent⟩

theorem Proper.cancelEach (h : t.Proper) (ids : List TokenId) :
    (ids.foldl Tokens.cancelAlone t).Proper := by
  induction ids generalizing t with
  | nil => exact h
  | cons id ids ih => exact ih (h.cancelAlone id)

theorem Proper.cancel (h : t.Proper) (id : TokenId) : (t.cancel id).Proper := by
  unfold Tokens.cancel
  split
  · exact h
  · split
    · exact h
    · exact (h.cancelEach _).cancelAlone id

/-- Another token than the parent is cancelled by itself. -/
theorem Linked.cancelAlone {parent child : TokenId} (h : t.Linked parent child) (hne : parent ≠ id) :
    (t.cancelAlone id).Linked parent child := by
  rcases h with hc | ⟨token, hget, hlinked⟩
  · exact .inl ((fired_cancelAlone t id).isCancelled hc)
  · obtain ⟨token', hget', -, -, hsame⟩ := cancelAlone_get hget id
    obtain rfl := hsame hne
    exact .inr ⟨token', hget', hlinked⟩

theorem Linked.cancelEach {parent child : TokenId} (h : t.Linked parent child) {ids : List TokenId}
    (hne : parent ∉ ids) : (ids.foldl Tokens.cancelAlone t).Linked parent child := by
  induction ids generalizing t with
  | nil => exact h
  | cons id ids ih =>
    rw [List.mem_cons, not_or] at hne
    exact ih (h.cancelAlone hne.1) hne.2

theorem isCancelled_cancelEach {ids : List TokenId} (hmem : id ∈ ids) (hid : t.Exists id) :
    (ids.foldl cancelAlone t).isCancelled id = true := by
  induction ids generalizing t with
  | nil => cases hmem
  | cons first ids ih =>
    have hid' : (t.cancelAlone first).Exists id := by
      rw [Exists, (fired_cancelAlone t first).length]
      exact hid
    rcases List.mem_cons.mp hmem with rfl | hmem
    · exact (fired_cancelEach ids _).isCancelled (isCancelled_cancelAlone_self hid)
    · exact ih hmem hid'

/-- Whatever is cancelled, a child is cancelled with its parent. -/
theorem Linked.cancel {parent child : TokenId} (h : t.Linked parent child) (hp : t.Proper)
    (id : TokenId) : (t.cancel id).Linked parent child := by
  rcases h with hc | ⟨token, hget, hlive, hroot, hchild⟩
  · exact .inl ((fired_cancel t id).isCancelled hc)
  · unfold Tokens.cancel
    split
    · exact .inr ⟨token, hget, hlive, hroot, hchild⟩
    · rename_i token' hget'
      split
      · exact .inr ⟨token, hget, hlive, hroot, hchild⟩
      · by_cases hid : parent = id
        · -- all children of the parent are cancelled before it
          subst hid
          obtain rfl := Option.some.inj (hget.symm.trans hget')
          obtain ⟨found, hfound, -⟩ := hp parent token hget child hchild
          have hexists : t.Exists child := (List.getElem?_eq_some_iff.mp hfound).1
          exact .inl ((fired_cancelAlone _ parent).isCancelled
            (isCancelled_cancelEach (List.mem_reverse.mpr hchild) hexists))
        · -- the parent is nobody's child, so it is not among those that are cancelled
          have hnot : parent ∉ token'.children.reverse := fun hmem => by
            obtain ⟨found, hfound, hparent⟩ :=
              hp id token' hget' parent (List.mem_reverse.mp hmem)
            obtain rfl := Option.some.inj (hget.symm.trans hfound)
            rw [hroot] at hparent
            cases hparent
          have hlinked : t.Linked parent child := .inr ⟨token, hget, hlive, hroot, hchild⟩
          exact (hlinked.cancelEach hnot).cancelAlone hid

/-! ### Letting go of a child -/

theorem swapRemove_concat (ids : List TokenId) (last id : TokenId) :
    swapRemove (ids ++ [last]) id = ids.map fun i => if i = id then last else i := by
  simp only [swapRemove, List.getLast?_concat, List.map_append, List.map_singleton,
    List.dropLast_concat]

theorem mem_of_mem_swapRemove {ids : List TokenId} {x : TokenId} (hx : x ∈ swapRemove ids id) :
    x ∈ ids := by
  cases hlast : ids.getLast? with
  | none =>
    rw [swapRemove, hlast] at hx
    cases hx
  | some last =>
    obtain ⟨ids, rfl⟩ := List.getLast?_eq_some_iff.mp hlast
    rw [swapRemove_concat] at hx
    obtain ⟨i, hi, rfl⟩ := List.mem_map.mp hx
    split
    · exact List.mem_append_right _ (List.mem_singleton_self last)
    · exact List.mem_append_left _ hi

theorem mem_swapRemove {ids : List TokenId} {x : TokenId} (hid : id ∈ ids) (hx : x ∈ ids)
    (hne : x ≠ id) : x ∈ swapRemove ids id := by
  cases hlast : ids.getLast? with
  | none =>
    rw [List.getLast?_eq_none_iff.mp hlast] at hx
    cases hx
  | some last =>
    obtain ⟨ids, rfl⟩ := List.getLast?_eq_some_iff.mp hlast
    simp only [List.mem_append, List.mem_singleton] at hid hx
    rw [swapRemove_concat, List.mem_map]
    rcases hx with hx | rfl
    · exact ⟨x, hx, if_neg hne⟩
    · -- the last one stands where the other one stood
      exact ⟨id, hid.resolve_right (Ne.symm hne), if_pos rfl⟩

theorem dropChild_get {token : Token} (hget : t.tokens[other]? = some token) (id : TokenId) :
    ∃ token' : Token, (t.dropChild id).tokens[other]? = some token' ∧
      token'.cancelled = token.cancelled ∧ token'.parent = token.parent ∧
      (∀ x ∈ token'.children, x ∈ token.children) ∧
      ∀ x ∈ token.children, x ≠ id → x ∈ token'.children := by
  have hsame : ∀ x ∈ token.children, x ≠ id → x ∈ token.children := fun _ hx _ => hx
  unfold dropChild
  split
  · exact ⟨token, hget, rfl, rfl, fun _ hx => hx, hsame⟩
  · refine ⟨_, modify_eq_some.mpr ⟨token, hget, rfl⟩, ?_⟩
    split
    · split
      · rename_i hcontains
        exact ⟨rfl, rfl, fun _ => mem_of_mem_swapRemove,
          fun _ => mem_swapRemove (List.contains_iff_mem.mp hcontains)⟩
      · exact ⟨rfl, rfl, fun _ hx => hx, hsame⟩
    · exact ⟨rfl, rfl, fun _ hx => hx, hsame⟩

@[simp] theorem length_dropChild (t : Tokens) (id : TokenId) :
    (t.dropChild id).tokens.length = t.tokens.length := by
  unfold dropChild
  split
  · rfl
  · exact length_modify ..

theorem Proper.dropChild (h : t.Proper) (id : TokenId) : (t.dropChild id).Proper := by
  intro parent token' hget' child hchild
  have hlt : parent < (t.dropChild id).tokens.length := (List.getElem?_eq_some_iff.mp hget').1
  rw [length_dropChild] at hlt
  obtain ⟨token'', hget'', -, -, hsub, -⟩ := dropChild_get (List.getElem?_eq_getElem hlt) id
  obtain rfl := Option.some.inj (hget'.symm.trans hget'')
  obtain ⟨other, hother, hparent⟩ :=
    h parent _ (List.getElem?_eq_getElem hlt) child (hsub child hchild)
  obtain ⟨other', hother', -, hparent', -⟩ := dropChild_get hother id
  exact ⟨other', hother', hparent'.trans hparent⟩

theorem isCancelled_dropChild (t : Tokens) (id other : TokenId) :
    (t.dropChild id).isCancelled other = t.isCancelled other := by
  unfold dropChild
  split
  · rfl
  · exact isCancelled_modify (fun token => by split <;> rfl) t _ other

theorem Linked.dropChild {parent child : TokenId} (h : t.Linked parent child) (hne : child ≠ id) :
    (t.dropChild id).Linked parent child := by
  rcases h with hc | ⟨token, hget, hlive, hroot, hchild⟩
  · exact .inl ((isCancelled_dropChild t id child).trans hc)
  · obtain ⟨token', hget', hc, hp, -, hkeeps⟩ := dropChild_get hget id
    exact .inr ⟨token', hget', hc.trans hlive, hp.trans hroot, hkeeps child hchild hne⟩

/-! ### What all operations keep -/

/-- There is such a token, and it is no child. -/
def Root (t : Tokens) (id : TokenId) : Prop :=
  ∃ token, t.tokens[id]? = some token ∧ token.parent = none

/-- What is known of tokens stays true, but for a child that was let go of. -/
structure Later (gone : Option TokenId) (t t' : Tokens) : Prop where
  length : t.tokens.length ≤ t'.tokens.length
  proper : t'.Proper
  cancelled : ∀ id, t.isCancelled id = true → t'.isCancelled id = true
  root : ∀ id, t.Root id → t'.Root id
  linked : ∀ parent child, some child ≠ gone → t.Linked parent child → t'.Linked parent child

theorem length_le_of_get
    (h : ∀ (id : TokenId) (token : Token), t.tokens[id]? = some token →
      ∃ token' : Token, t'.tokens[id]? = some token') : t.tokens.length ≤ t'.tokens.length := by
  refine Nat.le_of_not_lt fun hlt => ?_
  obtain ⟨token', hget⟩ := h t'.tokens.length t.tokens[t'.tokens.length] (List.getElem?_eq_getElem hlt)
  rw [List.getElem?_eq_none (Nat.le_refl _)] at hget
  cases hget

theorem Proper.similar (hp : t.Proper) (h : Similar t t') (gone : Option TokenId) : Later gone t t' where
  length := length_le_of_get fun id token hget => by
    obtain ⟨token', hget', -⟩ := h.get hget
    exact ⟨token', hget'⟩
  proper := h.proper hp
  cancelled id hc := (h.isCancelled id).trans hc
  root id := by
    rintro ⟨token, hget, hroot⟩
    obtain ⟨token', hget', -, hparent, -⟩ := h.get hget
    exact ⟨token', hget', hparent.trans hroot⟩
  linked _ _ _ hl := h.linked hl

theorem Root.cancelAlone (h : t.Root other) (id : TokenId) : (t.cancelAlone id).Root other := by
  obtain ⟨token, hget, hroot⟩ := h
  obtain ⟨token', hget', hparent, -⟩ := cancelAlone_get hget id
  exact ⟨token', hget', hparent.trans hroot⟩

theorem Root.cancelEach (h : t.Root other) (ids : List TokenId) :
    (ids.foldl Tokens.cancelAlone t).Root other := by
  induction ids generalizing t with
  | nil => exact h
  | cons id ids ih => exact ih (h.cancelAlone id)

theorem Proper.later_cancel (hp : t.Proper) (id : TokenId) : Later none t (t.cancel id) where
  length := Nat.le_of_eq (fired_cancel t id).length.symm
  proper := hp.cancel id
  cancelled _ hc := (fired_cancel t id).isCancelled hc
  root other h := by
    unfold Tokens.cancel
    split
    · exact h
    · split
      · exact h
      · exact (h.cancelEach _).cancelAlone id
  linked _ _ _ hl := hl.cancel hp id

theorem Proper.later_add (hp : t.Proper) : Later none t t.add.2 where
  length := (grown_add t).length
  proper := hp.append rfl t.woken
  cancelled id hc := by
    obtain ⟨token, hget, hc⟩ := isCancelled_iff.mp hc
    exact isCancelled_iff.mpr ⟨token, getElem?_append_token hget, hc⟩
  root _ := fun ⟨token, hget, hroot⟩ => ⟨token, getElem?_append_token hget, hroot⟩
  linked _ _ _ hl := hl.of_grown fun _ token hget =>
    ⟨token, getElem?_append_token hget, rfl, rfl, fun _ hx => hx⟩

theorem Proper.later_addChild (hp : t.Proper) (parent : TokenId) :
    Later none t (t.addChild parent).2 where
  length := (grown_addChild t parent).length
  proper := hp.addChild parent
  cancelled id hc := by
    obtain ⟨token, hget, hc⟩ := isCancelled_iff.mp hc
    obtain ⟨token', hget', hc', -⟩ := grown_children_addChild t parent id token hget
    exact isCancelled_iff.mpr ⟨token', hget', hc'.trans hc⟩
  root id := by
    rintro ⟨token, hget, hroot⟩
    obtain ⟨token', hget', -, hparent, -⟩ := grown_children_addChild t parent id token hget
    exact ⟨token', hget', hparent.trans hroot⟩
  linked _ _ _ hl := hl.of_grown (grown_children_addChild t parent)

theorem Proper.later_dropChild (hp : t.Proper) (id : TokenId) : Later (some id) t (t.dropChild id) where
  length := Nat.le_of_eq (length_dropChild t id).symm
  proper := hp.dropChild id
  cancelled other hc := (isCancelled_dropChild t id other).trans hc
  root other := by
    rintro ⟨token, hget, hroot⟩
    obtain ⟨token', hget', -, hparent, -⟩ := dropChild_get hget id
    exact ⟨token', hget', hparent.trans hroot⟩
  linked _ _ hne hl := hl.dropChild fun heq => hne (congrArg some heq)

theorem Proper.later_refl (hp : t.Proper) (gone : Option TokenId) : Later gone t t :=
  hp.similar (fun _ => rfl) gone

theorem Later.stays {gone : Option TokenId} (h : Later gone t t') (hid : t.Exists id) : t'.Exists id :=
  Nat.lt_of_lt_of_le hid h.length

theorem Later.woken {gone : Option TokenId} (h : Later gone t t') (woken : List Nat) :
    Later gone t { t' with woken } :=
  ⟨h.length, h.proper, h.cancelled, h.root, h.linked⟩

/-- A new token has the next number. -/
theorem addChild_fst (t : Tokens) (parent : TokenId) :
    (t.addChild parent).1 = t.tokens.length ∧ (t.addChild parent).2.Exists t.tokens.length := by
  unfold addChild Exists
  split <;> simp

/-! ### Children that are cancelled with their parent only -/

/-- The parent is cancelled, or its child is not. -/
def Sheltered (t : Tokens) (parent child : TokenId) : Prop :=
  t.isCancelled parent = true ∨ ∃ token, t.tokens[child]? = some token ∧ token.cancelled = false ∧
    token.parent = some parent

/-- If such a child is cancelled, its parent is. -/
theorem Sheltered.isCancelled {parent child : TokenId} (h : t.Sheltered parent child)
    (hc : t.isCancelled child = true) : t.isCancelled parent = true := by
  rcases h with h | ⟨token, hget, hlive, -⟩
  · exact h
  · rw [Tokens.isCancelled, hget] at hc
    exact absurd hc (by simp [hlive])

/-- What there is has not been cancelled, nor given to another parent. -/
theorem Sheltered.of_grown {parent child : TokenId} (h : t.Sheltered parent child)
    (hgrown : ∀ (id : TokenId) (token : Token), t.tokens[id]? = some token →
      ∃ token' : Token, t'.tokens[id]? = some token' ∧ token'.cancelled = token.cancelled ∧
        token'.parent = token.parent) : t'.Sheltered parent child := by
  rcases h with hc | ⟨token, hget, hlive, hparent⟩
  · obtain ⟨token, hget, hc⟩ := isCancelled_iff.mp hc
    obtain ⟨token', hget', hc', -⟩ := hgrown parent token hget
    exact .inl (isCancelled_iff.mpr ⟨token', hget', hc'.trans hc⟩)
  · obtain ⟨token', hget', hc', hparent'⟩ := hgrown child token hget
    exact .inr ⟨token', hget', hc'.trans hlive, hparent'.trans hparent⟩

theorem Sheltered.similar {parent child : TokenId} (h : t.Sheltered parent child)
    (hs : Similar t t') : t'.Sheltered parent child :=
  h.of_grown fun _ _ hget => by
    obtain ⟨token', hget', hc, hp, -⟩ := hs.get hget
    exact ⟨token', hget', hc, hp⟩

theorem Sheltered.add {parent child : TokenId} (h : t.Sheltered parent child) :
    t.add.2.Sheltered parent child :=
  h.of_grown fun _ token hget => ⟨token, getElem?_append_token hget, rfl, rfl⟩

theorem Sheltered.addChild {parent child : TokenId} (h : t.Sheltered parent child) (id : TokenId) :
    (t.addChild id).2.Sheltered parent child :=
  h.of_grown fun other token hget => by
    obtain ⟨token', hget', hc, hp, -⟩ := grown_children_addChild t id other token hget
    exact ⟨token', hget', hc, hp⟩

theorem Sheltered.dropChild {parent child : TokenId} (h : t.Sheltered parent child) (id : TokenId) :
    (t.dropChild id).Sheltered parent child :=
  h.of_grown fun _ _ hget => by
    obtain ⟨token', hget', hc, hp, -⟩ := dropChild_get hget id
    exact ⟨token', hget', hc, hp⟩

/-- A new child is cancelled if its parent is, and not otherwise. -/
theorem sheltered_addChild (t : Tokens) (parent : TokenId) :
    (t.addChild parent).2.Sheltered parent (t.addChild parent).1 := by
  cases hc : t.isCancelled parent with
  | true =>
    obtain ⟨token, hget, hc⟩ := isCancelled_iff.mp hc
    obtain ⟨token', hget', hc', -⟩ := grown_children_addChild t parent parent token hget
    exact .inl (isCancelled_iff.mpr ⟨token', hget', hc'.trans hc⟩)
  | false =>
    have hnew : (t.tokens ++ [({ parent := some parent } : Token)])[t.tokens.length]? =
        some { parent := some parent } := by simp
    simp only [addChild, hc, Bool.false_eq_true, if_false]
    refine .inr ⟨_, modify_eq_some.mpr ⟨_, hnew, rfl⟩, ?_⟩
    split <;> exact ⟨rfl, rfl⟩

theorem cancelEach_get {token : Token} (hget : t.tokens[other]? = some token) {ids : List TokenId}
    (hne : other ∉ ids) : (ids.foldl cancelAlone t).tokens[other]? = some token := by
  induction ids generalizing t with
  | nil => exact hget
  | cons id ids ih =>
    rw [List.mem_cons, not_or] at hne
    obtain ⟨token', hget', -, -, hsame⟩ := cancelAlone_get hget id
    exact ih (hsame hne.1 ▸ hget') hne.2

/-- If it is not the child itself that is cancelled, the child is cancelled only with its parent. -/
theorem Sheltered.cancel {parent child : TokenId} (h : t.Sheltered parent child) (hp : t.Proper)
    (hne : child ≠ id) : (t.cancel id).Sheltered parent child := by
  rcases h with hc | ⟨token, hget, hlive, hparent⟩
  · exact .inl ((fired_cancel t id).isCancelled hc)
  · unfold Tokens.cancel
    split
    · exact .inr ⟨token, hget, hlive, hparent⟩
    · rename_i token' hget'
      split
      · exact .inr ⟨token, hget, hlive, hparent⟩
      · by_cases hid : id = parent
        · subst hid
          refine .inl (isCancelled_cancelAlone_self ?_)
          rw [Exists, (fired_cancelEach _ t).length]
          exact (List.getElem?_eq_some_iff.mp hget').1
        · -- a child has one parent, so it is not among the children of another token
          have hnot : child ∉ token'.children.reverse := fun hmem => by
            obtain ⟨found, hfound, hother⟩ := hp id token' hget' child (List.mem_reverse.mp hmem)
            obtain rfl := Option.some.inj (hget.symm.trans hfound)
            exact hid (Option.some.inj (hother.symm.trans hparent))
          obtain ⟨token'', hget'', -, -, hsame⟩ := cancelAlone_get (cancelEach_get hget hnot) id
          obtain rfl := hsame hne
          exact .inr ⟨token'', hget'', hlive, hparent⟩

end Courier.Tokens
