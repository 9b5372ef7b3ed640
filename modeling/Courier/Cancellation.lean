/-!
# Cancellation tokens

A token is cancelled once and for good. Cancelling a token cancels its children first, the one made
last before the others, and then the token itself; everyone who waits for a token is woken when it
is cancelled, in the order of waiting. A token made as the child of a cancelled one is cancelled.
Children have no children of their own.
-/

namespace Courier

/-- A token, by the number of its making. -/
abbrev TokenId := Nat

/-- A cancellation token. -/
structure Token where
  cancelled : Bool := false
  parent : Option TokenId := none
  children : List TokenId := []
  /-- Tasks that wait for it, the first one first. -/
  waiting : List Nat := []
  deriving DecidableEq, Repr

/-- All tokens, and the tasks woken since that was last looked at. -/
structure Tokens where
  tokens : List Token := []
  woken : List Nat := []
  deriving DecidableEq, Repr

namespace Tokens

/-- Has the token been cancelled? A token that does not exist has not. -/
def isCancelled (t : Tokens) (id : TokenId) : Bool :=
  match t.tokens[id]? with
  | some token => token.cancelled
  | none => false

/-- Change one token. -/
def modify (t : Tokens) (id : TokenId) (f : Token → Token) : Tokens :=
  { t with tokens := t.tokens.modify id f }

/-- Make a token. -/
def add (t : Tokens) : TokenId × Tokens :=
  (t.tokens.length, { t with tokens := t.tokens ++ [{}] })

/-- Make a child of a token. -/
def addChild (t : Tokens) (parent : TokenId) : TokenId × Tokens :=
  let id := t.tokens.length
  if t.isCancelled parent then
    (id, { t with tokens := t.tokens ++ [{ cancelled := true }] })
  else
    let t : Tokens := { t with tokens := t.tokens ++ [{ parent := some parent }] }
    (id, t.modify parent fun token => { token with children := token.children ++ [id] })

/-- Cancel a token by itself and wake who waits for it. -/
def cancelAlone (t : Tokens) (id : TokenId) : Tokens :=
  match t.tokens[id]? with
  | none => t
  | some token =>
    if token.cancelled then t
    else
      { t.modify id fun token => { token with cancelled := true, children := [], waiting := [] }
        with woken := t.woken ++ token.waiting }

/-- Cancel a token and its children. -/
def cancel (t : Tokens) (id : TokenId) : Tokens :=
  match t.tokens[id]? with
  | none => t
  | some token =>
    if token.cancelled then t
    else (token.children.reverse.foldl cancelAlone t).cancelAlone id

/-- Take an element out of a list and put the last one in its place. -/
def swapRemove (ids : List TokenId) (id : TokenId) : List TokenId :=
  match ids.getLast? with
  | none => []
  | some last => (ids.map fun i => if i = id then last else i).dropLast

/-- Let go of a child: its parent forgets it. -/
def dropChild (t : Tokens) (id : TokenId) : Tokens :=
  match t.tokens[id]?.bind (·.parent) with
  | none => t
  | some parent =>
    t.modify parent fun token =>
      if token.children.contains id then { token with children := swapRemove token.children id }
      else token

/-- The task waits for the token, if it does not already. -/
def register (t : Tokens) (id : TokenId) (task : Nat) : Tokens :=
  t.modify id fun token =>
    if token.waiting.contains task then token
    else { token with waiting := token.waiting ++ [task] }

/-- The task no longer waits for the token. -/
def unregister (t : Tokens) (id : TokenId) (task : Nat) : Tokens :=
  t.modify id fun token => { token with waiting := token.waiting.erase task }

end Tokens

end Courier
