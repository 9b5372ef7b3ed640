import Courier.Program

/-!
# What programs ask and are told

A run of a program is known by its dialogue: the requests that it made, each with its answer, in
their order. `p.Told events result` says that `p` can ask and be told these, and end with this
result; which dialogues there are is found by going through the program (`told_bind`). Where
requests are carried out by other programs, the dialogue is made of theirs (`told_interpret`). A
dialogue `Follows` a protocol if each of its answers leads to a state where the next request is
allowed.

`Program.note` writes the dialogue of a run down, whoever answers, and changes nothing of the run
(`run_note`). What holds of all dialogues so holds of every run (`told_run_note`).
-/

namespace Courier.Program

variable {R S : Type} [Requests R] [Requests S] {α β σ : Type}

/-- A request that was made, with its answer. -/
structure Event (R : Type) [Requests R] where
  request : R
  answer : Requests.Answer request

/-- The program can make these requests, be told these answers, and end with this result. -/
def Told : Program R α → List (Event R) → α → Prop
  | .done a, events, result => events = [] ∧ result = a
  | .ask r next, events, result =>
    ∃ answer rest, events = ⟨r, answer⟩ :: rest ∧ (next answer).Told rest result

/-- One program after another has one dialogue after another. -/
theorem told_bind {p : Program R α} {next : α → Program R β} {events : List (Event R)}
    {result : β} :
    (p.bind next).Told events result ↔
      ∃ a first second, events = first ++ second ∧ p.Told first a ∧
        (next a).Told second result := by
  induction p generalizing events with
  | done a =>
    constructor
    · exact fun h => ⟨a, [], events, rfl, ⟨rfl, rfl⟩, h⟩
    · rintro ⟨_, _, second, rfl, ⟨rfl, rfl⟩, h⟩
      exact h
  | ask r rest ih =>
    constructor
    · rintro ⟨answer, events, rfl, h⟩
      obtain ⟨a, first, second, rfl, hfirst, hsecond⟩ := (ih answer).mp h
      exact ⟨a, ⟨r, answer⟩ :: first, second, rfl, ⟨answer, first, rfl, hfirst⟩, hsecond⟩
    · rintro ⟨a, _, second, rfl, ⟨answer, first, rfl, hfirst⟩, hsecond⟩
      exact ⟨answer, first ++ second, rfl, (ih answer).mpr ⟨a, first, second, rfl, hfirst, hsecond⟩⟩

/-- The second dialogue is that of the programs which carry out the requests of the first. -/
def Carried (each : (r : R) → Program S (Requests.Answer r)) :
    List (Event R) → List (Event S) → Prop
  | [], events => events = []
  | event :: rest, events =>
    ∃ first second, events = first ++ second ∧ (each event.request).Told first event.answer ∧
      Carried each rest second

theorem carried_append {each : (r : R) → Program S (Requests.Answer r)}
    {first second : List (Event R)} {events : List (Event S)}
    (h : Carried each (first ++ second) events) :
    ∃ carried carried', events = carried ++ carried' ∧ Carried each first carried ∧
      Carried each second carried' := by
  induction first generalizing events with
  | nil => exact ⟨[], events, rfl, rfl, h⟩
  | cons event rest ih =>
    obtain ⟨own, others, rfl, hown, hothers⟩ := h
    obtain ⟨carried, carried', rfl, hfirst, hsecond⟩ := ih hothers
    exact ⟨own ++ carried, carried', (List.append_assoc ..).symm, ⟨own, carried, rfl, hown, hfirst⟩,
      hsecond⟩

/-- Each request that is carried out by another program has that program's dialogue. -/
theorem told_interpret {each : (r : R) → Program S (Requests.Answer r)} {p : Program R α}
    {events : List (Event S)} {result : α} (h : (p.interpret each).Told events result) :
    ∃ asked, p.Told asked result ∧ Carried each asked events := by
  induction p generalizing events with
  | done a => exact ⟨[], ⟨rfl, h.2⟩, h.1⟩
  | ask r next ih =>
    obtain ⟨answer, first, second, rfl, hfirst, hsecond⟩ := told_bind.mp h
    obtain ⟨asked, hp, hcarried⟩ := ih answer hsecond
    exact ⟨⟨r, answer⟩ :: asked, ⟨answer, asked, rfl, hp⟩, first, second, rfl, hfirst, hcarried⟩

/-! ## Protocols -/

section Follows

variable {G : Type} {moves : G → (r : R) → Requests.Answer r → G → Prop}

/-- The dialogue is one that the protocol allows, from a state to a state. -/
def Follows (moves : G → (r : R) → Requests.Answer r → G → Prop) : G → List (Event R) → G → Prop
  | g, [], g' => g' = g
  | g, event :: rest, g' =>
    ∃ next, moves g event.request event.answer next ∧ Follows moves next rest g'

theorem follows_append {g g' : G} {first second : List (Event R)} :
    Follows moves g (first ++ second) g' ↔
      ∃ next, Follows moves g first next ∧ Follows moves next second g' := by
  induction first generalizing g with
  | nil => simp only [List.nil_append, Follows, exists_eq_left]
  | cons event rest ih =>
    simp only [List.cons_append, Follows, ih]
    exact ⟨fun ⟨n, hn, m, hm, h⟩ => ⟨m, ⟨n, hn, hm⟩, h⟩,
      fun ⟨m, ⟨n, hn, hm⟩, h⟩ => ⟨n, hn, m, hm, h⟩⟩

theorem follows_singleton {g g' : G} {event : Event R} :
    Follows moves g [event] g' ↔ moves g event.request event.answer g' := by
  simp only [Follows, exists_eq_right']

end Follows

/-! ## Runs -/

/-- Answer as `answer` does, and write down what was asked and answered. -/
def note (answer : (r : R) → σ → Requests.Answer r × σ) (r : R) (s : σ × List (Event R)) :
    Requests.Answer r × (σ × List (Event R)) :=
  ((answer r s.1).1, (answer r s.1).2, s.2 ++ [⟨r, (answer r s.1).1⟩])

/-- Writing down changes nothing. -/
theorem run_note (answer : (r : R) → σ → Requests.Answer r × σ) (p : Program R α)
    (s : σ × List (Event R)) :
    ((p.run (note answer) s).1, (p.run (note answer) s).2.1) = p.run answer s.1 := by
  induction p generalizing s with
  | done a => rfl
  | ask r next ih => exact ih _ _

/-- What a run writes down is a dialogue of the program. -/
theorem told_run_note (answer : (r : R) → σ → Requests.Answer r × σ) (p : Program R α)
    (s : σ) (before : List (Event R)) :
    ∃ events, (p.run (note answer) (s, before)).2.2 = before ++ events ∧
      p.Told events (p.run (note answer) (s, before)).1 := by
  induction p generalizing s before with
  | done a => exact ⟨[], (List.append_nil _).symm, rfl, rfl⟩
  | ask r next ih =>
    obtain ⟨events, hevents, htold⟩ := ih (answer r s).1 (answer r s).2
      (before ++ [⟨r, (answer r s).1⟩])
    exact ⟨⟨r, (answer r s).1⟩ :: events, by
      rw [run]; simpa only [note, List.append_assoc, List.singleton_append] using hevents,
      _, events, rfl, htold⟩

end Courier.Program
