import Courier.Transport.Request

/-!
# Protocols of programs

A protocol says how a program and its surroundings may go on from a state: `moves g r a g'` if in the
state `g` the request `r` may be made and be answered by `a`, after which the state is `g'`. A
program that obeys a protocol makes only requests that have an answer there, whatever the answers
are that it has got before, and is done only in states that `post` admits.

What holds of a program is so said once of the whole of it (`Obeys.bind` puts it together from its
parts) and used one request at a time: `Obeys.allowed` is what may be assumed of the next request,
`Obeys.next` what holds of the rest.
-/

namespace Courier

/-- A protocol that leaves it to the connection how to answer, leaves it an answer. -/
theorem Transport.nonempty_answer (r : Transport.Request) : Nonempty (Requests.Answer r) := by
  cases r <;> first | exact ⟨()⟩ | exact ⟨.error .nacked⟩

namespace Program

variable {R S T G : Type} [Requests R] [Requests S] [Requests T] {α β : Type}
  {moves : G → (r : R) → Requests.Answer r → G → Prop}

/-- The program keeps to the protocol from this state on. -/
def Obeys (moves : G → (r : R) → Requests.Answer r → G → Prop) (post : α → G → Prop) :
    Program R α → G → Prop
  | .done a, g => post a g
  | .ask r next, g =>
    (∃ a g', moves g r a g') ∧ ∀ a g', moves g r a g' → (next a).Obeys moves post g'

theorem Obeys.allowed {post : α → G → Prop} {r : R} {next : Requests.Answer r → Program R α} {g : G}
    (h : (Program.ask r next).Obeys moves post g) : ∃ a g', moves g r a g' :=
  h.1

theorem Obeys.next {post : α → G → Prop} {r : R} {next : Requests.Answer r → Program R α} {g g' : G}
    {a : Requests.Answer r} (h : (Program.ask r next).Obeys moves post g) (hm : moves g r a g') :
    (next a).Obeys moves post g' :=
  h.2 a g' hm

theorem Obeys.mono {post post' : α → G → Prop} {p : Program R α} {g : G}
    (h : p.Obeys moves post g) (hpost : ∀ a g, post a g → post' a g) : p.Obeys moves post' g := by
  induction p generalizing g with
  | done a => exact hpost a g h
  | ask r next ih => exact ⟨h.1, fun a g' hm => ih a (h.2 a g' hm)⟩

/-- One program after another. -/
theorem Obeys.bind {post : β → G → Prop} {p : Program R α} {next : α → Program R β} {g : G}
    (h : p.Obeys moves (fun a g => (next a).Obeys moves post g) g) :
    (p.bind next).Obeys moves post g := by
  induction p generalizing g with
  | done a => exact h
  | ask r rest ih => exact ⟨h.1, fun a g' hm => ih a (h.2 a g' hm)⟩

/-- A program whose requests are carried out by other programs obeys another protocol, if they do so
from where it stands, and it stands as `At` says. -/
theorem Obeys.interpret {H : Type} {moves' : H → (r : S) → Requests.Answer r → H → Prop}
    (At : G → H → Prop) {each : (r : R) → Program S (Requests.Answer r)} {post : α → G → Prop}
    {p : Program R α} {g : G} {stand : H} (h : p.Obeys moves post g) (hat : At g stand)
    (heach : ∀ r g stand, At g stand → (∃ a g', moves g r a g') →
      (each r).Obeys moves' (fun a stand' => ∃ g', moves g r a g' ∧ At g' stand') stand) :
    (p.interpret each).Obeys moves' (fun a stand => ∃ g, post a g ∧ At g stand) stand := by
  induction p generalizing g stand with
  | done a => exact ⟨g, h, hat⟩
  | ask r next ih =>
    refine ((heach r g stand hat h.allowed).mono fun a stand' hstep => ?_).bind
    obtain ⟨g', hm, hat'⟩ := hstep
    exact ih a (h.next hm) hat'

/-- Requests carried out in two steps are carried out in one. -/
theorem interpret_interpret (each : (r : R) → Program S (Requests.Answer r))
    (then' : (r : S) → Program T (Requests.Answer r)) (p : Program R α) :
    (p.interpret each).interpret then' = p.interpret fun r => (each r).interpret then' := by
  induction p with
  | done a => rfl
  | ask r next ih => simp only [interpret, interpret_bind, ih]

end Program

end Courier
