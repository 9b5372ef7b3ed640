/-!
# Programs that make requests

A program either is done with a result or asks its surroundings for something and goes on with
the answer. What may be asked is a type of requests, and each request fixes the type of its
answer. Every program is a finite tree, so it ends whatever the answers are; what an answer is,
and which other programs run between two requests, is left to whoever runs it.

* `Program.bind`: one program after another;
* `Program.interpret`: every request carried out by a program over other requests;
* `Program.run`: the requests answered from a state, nothing coming in between;
* `Program.advance`: the same as far as there are answers, the rest being kept for later.

Programs are a lawful monad, and running or interpreting one after another is the same as running
or interpreting both (`run_bind`, `interpret_bind`).
-/

namespace Courier

/-- A type of requests, each with the type of its answer. -/
class Requests (R : Type) where
  Answer : R → Type

/-- A computation that asks for things on its way to a result. -/
inductive Program (R : Type) [Requests R] (α : Type) where
  | done (result : α)
  | ask (request : R) (next : Requests.Answer request → Program R α)

namespace Program

variable {R S : Type} [Requests R] [Requests S] {α β γ : Type}

/-- Go on with `next` once the program is done. -/
def bind : Program R α → (α → Program R β) → Program R β
  | .done a, next => next a
  | .ask r rest, next => .ask r fun answer => (rest answer).bind next

instance : Monad (Program R) where
  pure := .done
  bind := bind

/-- Ask for one thing and answer what came back. -/
def request (r : R) : Program R (Requests.Answer r) :=
  .ask r .done

/-- Carry out every request by a program over another kind of requests. -/
def interpret (each : (r : R) → Program S (Requests.Answer r)) : Program R α → Program S α
  | .done a => .done a
  | .ask r next => (each r).bind fun answer => (next answer).interpret each

/-- Run to the end, answering each request from the state. -/
def run {σ : Type} (answer : (r : R) → σ → Requests.Answer r × σ) : Program R α → σ → α × σ
  | .done a, s => (a, s)
  | .ask r next, s =>
    let (a, s) := answer r s
    (next a).run answer s

/-- What becomes of a request that may have to wait. -/
inductive Reaction (α : Type) where
  | ready (answer : α)
  /-- There is no answer yet. -/
  | blocked
  /-- The one who asked ends here. -/
  | panicked

/-- How far a program has come. -/
inductive Advanced (R : Type) [Requests R] (α : Type) where
  | done (result : α)
  /-- It waits for the answer of its first request. -/
  | waiting (rest : Program R α)
  | panicked

/-- Run as far as there are answers. -/
def advance {σ : Type} (react : (r : R) → σ → Reaction (Requests.Answer r) × σ) :
    Program R α → σ → Advanced R α × σ
  | .done a, s => (.done a, s)
  | .ask r next, s =>
    match react r s with
    | (.ready answer, s) => (next answer).advance react s
    | (.blocked, s) => (.waiting (.ask r next), s)
    | (.panicked, s) => (.panicked, s)

/-- Run a list of programs one after another and collect what they answer. -/
def collect : List (Program R α) → Program R (List α)
  | [] => .done []
  | p :: ps => p.bind fun a => (collect ps).bind fun as => .done (a :: as)

@[simp] theorem pure_eq_done (a : α) : (pure a : Program R α) = .done a := rfl

@[simp] theorem bind_eq (p : Program R α) (next : α → Program R β) :
    p >>= next = p.bind next := rfl

@[simp] theorem done_bind (a : α) (next : α → Program R β) :
    (Program.done a).bind next = next a := rfl

@[simp] theorem ask_bind (r : R) (rest : Requests.Answer r → Program R α)
    (next : α → Program R β) :
    (Program.ask r rest).bind next = .ask r fun answer => (rest answer).bind next := rfl

@[simp] theorem bind_done (p : Program R α) : p.bind .done = p := by
  induction p with
  | done a => rfl
  | ask r next ih => simp only [ask_bind, ih]

theorem bind_assoc (p : Program R α) (f : α → Program R β) (g : β → Program R γ) :
    (p.bind f).bind g = p.bind fun a => (f a).bind g := by
  induction p with
  | done a => rfl
  | ask r next ih => simp only [ask_bind, ih]

theorem interpret_bind (each : (r : R) → Program S (Requests.Answer r)) (p : Program R α)
    (next : α → Program R β) :
    (p.bind next).interpret each = (p.interpret each).bind fun a => (next a).interpret each := by
  induction p with
  | done a => rfl
  | ask r rest ih => simp only [ask_bind, interpret, ih, bind_assoc]

theorem run_bind {σ : Type} (answer : (r : R) → σ → Requests.Answer r × σ) (p : Program R α)
    (next : α → Program R β) (s : σ) :
    (p.bind next).run answer s = (next (p.run answer s).1).run answer (p.run answer s).2 := by
  induction p generalizing s with
  | done a => rfl
  | ask r rest ih => simp only [ask_bind, run, ih]

instance : LawfulMonad (Program R) := LawfulMonad.mk' (Program R)
  (fun p => bind_done p)
  (fun _ _ => rfl)
  (fun p f g => bind_assoc p f g)

end Program

end Courier
