import Courier.Proofs.Memory.Handles
import Courier.Proofs.Memory.Topology

/-!
# Sessions that keep their channels

A session is carried out while anything else befalls the broker, but the channels that it has opened
are its own: no one else closes them (`Undisturbed`). `Assured` is said of a session from what holds
before it: each of its requests changes the broker in one way only, and something holds in the end.
It is proved along the session (`Assured.done`, `Assured.ask`, `Assured.bind`) from what no one else
can undo (`Stable`); and it holds of the session that is run with nothing in between, too
(`Assured.run`).
-/

namespace Courier.Memory

open Transport (Session)

/-- What a session is confronted with. -/
structure Scene where
  /-- The channels that are its own. -/
  own : List ChannelId
  memory : Memory

/-- The channel that a request opens. -/
def opened (m : Memory) : Transport.Request → List ChannelId
  | .openChannel => [m.channels.length]
  | _ => []

namespace Scene

/-- What a request of the session leaves. -/
def asked (s : Scene) (r : Transport.Request) : Scene where
  own := s.own ++ s.memory.opened r
  memory := (answer r s.memory).2

/-- Something else befalls the broker. -/
def meanwhile (s : Scene) (activity : Activity) : Scene :=
  { s with memory := s.memory.act activity }

/-- It does not close a channel of the session. -/
def Spares (s : Scene) (activity : Activity) : Prop :=
  ∀ channel ∈ s.own, activity.closes channel = false

end Scene

/-- A session is carried out and its channels are spared; these are the brokers before and after each of
its requests. -/
inductive Undisturbed {α : Type} :
    Scene → Session α → List (Memory × Memory) → α → Scene → Prop where
  | done (s : Scene) (a : α) : Undisturbed s (.done a) [] a s
  | ask {s s' : Scene} {r : Transport.Request} {next : Requests.Answer r → Session α}
      {seen : List (Memory × Memory)} {a : α}
      (h : Undisturbed (s.asked r) (next (answer r s.memory).1) seen a s') :
      Undisturbed s (.ask r next) ((s.memory, (answer r s.memory).2) :: seen) a s'
  | meanwhile {s s' : Scene} {p : Session α} {seen : List (Memory × Memory)} {a : α}
      (activity : Activity) (hspares : s.Spares activity)
      (h : Undisturbed (s.meanwhile activity) p seen a s') : Undisturbed s p seen a s'

variable {α β : Type} {p : Session α} {s s' : Scene} {seen : List (Memory × Memory)} {a : α}
  {Step : Memory → Memory → Prop} {Before : Scene → Prop}

theorem Undisturbed.bind_cases {next : α → Session β} {b : β}
    (h : Undisturbed s (p.bind next) seen b s') :
    ∃ a s₁ first rest, Undisturbed s p first a s₁ ∧ Undisturbed s₁ (next a) rest b s' ∧
      seen = first ++ rest := by
  generalize hprogram : p.bind next = program at h
  induction h generalizing p with
  | done s b =>
    cases p with
    | done a =>
      rw [Program.done_bind] at hprogram
      exact ⟨a, s, [], [], .done s a, hprogram ▸ .done s b, rfl⟩
    | ask r rest => cases hprogram
  | @ask s s' r rest seen b h ih =>
    cases p with
    | done a =>
      rw [Program.done_bind] at hprogram
      exact ⟨a, s, [], _, .done s a, hprogram ▸ .ask h, rfl⟩
    | ask r' rest' =>
      cases hprogram
      obtain ⟨a, s₁, first, rest, h₁, h₂, rfl⟩ := ih rfl
      exact ⟨a, s₁, _ :: first, rest, .ask h₁, h₂, rfl⟩
  | meanwhile activity hspares h ih =>
    obtain ⟨a, s₁, first, rest, h₁, h₂, rfl⟩ := ih hprogram
    exact ⟨a, s₁, first, rest, .meanwhile activity hspares h₁, h₂, rfl⟩

/-- It may be that nothing comes in between. -/
theorem undisturbed_run (p : Session α) (own : List ChannelId) (m : Memory)
    (hrefl : ∀ m, Step m m) (htrans : ∀ m₁ m₂ m₃, Step m₁ m₂ → Step m₂ m₃ → Step m₁ m₃) :
    ∃ own' seen, Undisturbed ⟨own, m⟩ p seen (p.run answer m).1 ⟨own', (p.run answer m).2⟩ ∧
      ((∀ x ∈ seen, Step x.1 x.2) → Step m (p.run answer m).2) := by
  induction p generalizing own m with
  | done a => exact ⟨own, [], .done _ a, fun _ => hrefl m⟩
  | ask r next ih =>
    obtain ⟨own', seen, h, hsteps⟩ := ih (answer r m).1 (own ++ m.opened r) (answer r m).2
    exact ⟨own', (m, (answer r m).2) :: seen, .ask h, fun hall =>
      htrans _ _ _ (hall _ List.mem_cons_self) (hsteps fun x hx => hall x (List.mem_cons_of_mem _ hx))⟩

/-! ## What is assured -/

/-- No one else can undo it. -/
def Stable (P : Scene → Prop) : Prop :=
  ∀ s activity, s.Spares activity → P s → P (s.meanwhile activity)

/-- Whenever the session is carried out from such a scene, each of its requests changes the broker so,
and such a result comes of it. -/
def Assured (Step : Memory → Memory → Prop) (Before : Scene → Prop) (p : Session α)
    (After : α → Scene → Prop) : Prop :=
  ∀ ⦃s seen a s'⦄, Before s → Undisturbed s p seen a s' →
    (∀ x ∈ seen, Step x.1 x.2) ∧ After a s'

theorem Assured.done {After : α → Scene → Prop} (hstable : Stable Before)
    (hafter : ∀ s, Before s → After a s) : Assured Step Before (.done a) After := by
  intro s seen a' s' hs h
  generalize hprogram : (Program.done a : Session α) = program at h
  induction h with
  | done => cases hprogram; exact ⟨List.forall_mem_nil _, hafter _ hs⟩
  | ask => cases hprogram
  | meanwhile activity hspares _ ih => exact ih (hstable _ activity hspares hs) hprogram

theorem Assured.ask {r : Transport.Request} {next : Requests.Answer r → Session α}
    {After : α → Scene → Prop} {Mid : Requests.Answer r → Scene → Prop} (hstable : Stable Before)
    (hr : ∀ s, Before s → Step s.memory (answer r s.memory).2 ∧
      Mid (answer r s.memory).1 (s.asked r))
    (hnext : ∀ x, Assured Step (Mid x) (next x) After) :
    Assured Step Before (.ask r next) After := by
  intro s seen a s' hs h
  generalize hprogram : (Program.ask r next : Session α) = program at h
  induction h with
  | done => cases hprogram
  | ask h =>
    cases hprogram
    obtain ⟨hstep, hmid⟩ := hr _ hs
    obtain ⟨hsteps, hafter⟩ := hnext _ hmid h
    exact ⟨List.forall_mem_cons.mpr ⟨hstep, hsteps⟩, hafter⟩
  | meanwhile activity hspares _ ih => exact ih (hstable _ activity hspares hs) hprogram

theorem Assured.bind {next : α → Session β} {Mid : α → Scene → Prop} {After : β → Scene → Prop}
    (hp : Assured Step Before p Mid) (hnext : ∀ a, Assured Step (Mid a) (next a) After) :
    Assured Step Before (p.bind next) After := by
  intro s seen b s' hs h
  obtain ⟨a, s₁, first, rest, h₁, h₂, rfl⟩ := h.bind_cases
  obtain ⟨hfirst, hmid⟩ := hp hs h₁
  obtain ⟨hrest, hafter⟩ := hnext a hmid h₂
  exact ⟨List.forall_mem_append.mpr ⟨hfirst, hrest⟩, hafter⟩

theorem Assured.request {r : Transport.Request} {Mid : Requests.Answer r → Scene → Prop}
    (hbefore : Stable Before) (hmid : ∀ x, Stable (Mid x))
    (hr : ∀ s, Before s → Step s.memory (answer r s.memory).2 ∧
      Mid (answer r s.memory).1 (s.asked r)) :
    Assured Step Before (Program.request r) Mid :=
  .ask hbefore hr fun x => .done (hmid x) fun _ h => h

theorem Assured.mono {Step' : Memory → Memory → Prop} {After : α → Scene → Prop}
    (h : Assured Step Before p After) (hstep : ∀ m m', Step m m' → Step' m m') :
    Assured Step' Before p After := by
  intro s seen a s' hs hp
  obtain ⟨hsteps, hafter⟩ := h hs hp
  exact ⟨fun x hx => hstep _ _ (hsteps x hx), hafter⟩

/-- The session that is run with nothing in between. -/
theorem Assured.run {After : α → Scene → Prop} (h : Assured Step Before p After)
    (hrefl : ∀ m, Step m m) (htrans : ∀ m₁ m₂ m₃, Step m₁ m₂ → Step m₂ m₃ → Step m₁ m₃)
    (hs : Before s) :
    Step s.memory (p.run answer s.memory).2 ∧
      ∃ own, After (p.run answer s.memory).1 ⟨own, (p.run answer s.memory).2⟩ := by
  obtain ⟨own, seen, hrun, hsteps⟩ := undisturbed_run p s.own s.memory hrefl htrans
  obtain ⟨hall, hafter⟩ := h hs hrun
  exact ⟨hsteps hall, own, hafter⟩

end Courier.Memory
