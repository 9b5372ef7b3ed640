import Courier.Proofs.Notify
import Courier.Proofs.Protocol
import Courier.Publisher.Pooling

/-!
# Borrowing from a pool

What each step of a look at a pool can be (`step_looked`), and so what it does to the publishers there
(`Looked.tried`): one that is idle is taken, or a new one made if there may be more, or nothing happens
to them. And how a call on a pool goes on: `Moves` is the protocol of
all calls, by which a call gives back what it has borrowed before it borrows again or ends, and closes
what it has drained. Borrowing, publishing, giving back and closing keep to it whatever the pool and
the connection answer.
-/

namespace Courier

namespace Pool

variable {P : Type} {pool pool' : Pool P} {make : Nat → P} {i : Nat}

/-- The pools differ in wake-ups only. -/
structure Alike (pool pool' : Pool P) : Prop where
  idle : pool'.idle = pool.idle
  size : pool'.size = pool.size
  maxSize : pool'.maxSize = pool.maxSize
  closed : pool'.closed = pool.closed
  created : pool'.created = pool.created

theorem Alike.refl (pool : Pool P) : Alike pool pool :=
  ⟨rfl, rfl, rfl, rfl, rfl⟩

theorem alike_abandon (pool : Pool P) (waiter : Nat) : Alike pool (pool.abandon waiter).1 :=
  ⟨rfl, rfl, rfl, rfl, rfl⟩

/-! ## Open and closed pools -/

theorem putBack_of_closed (hclosed : pool.closed = true) (publisher : P) :
    pool.putBack publisher = (some publisher, pool.shrink, []) :=
  if_pos hclosed

theorem putBack_of_open (hopen : pool.closed = false) (publisher : P) :
    pool.putBack publisher =
      (none, { pool with idle := pool.idle ++ [publisher], available := pool.available.notifyOne.1 },
        pool.available.notifyOne.2) := by
  rw [putBack, hopen]
  rfl

theorem drain_of_closed (hclosed : pool.closed = true) : pool.drain = ([], pool, []) :=
  if_pos hclosed

theorem drain_of_open (hopen : pool.closed = false) :
    pool.drain =
      (pool.idle, { pool with idle := [], closed := true, available := pool.available.notifyAll.1 },
        pool.available.notifyAll.2) := by
  rw [drain, hopen]
  rfl

/-! ## The steps of a look -/

/-- A call takes the wake-up that it has, if it has one. -/
def rouse (pool : Pool P) (i : Nat) : Pool P :=
  { pool with available := pool.available.rouse i }

/-- All that the next step of a call can be, at each stage of its look. -/
inductive Looked (pool : Pool P) (make : Nat → P) (cancelled : Bool) (i : Nat) :
    Look → Progress P → Pool P → List Nat → Prop where
  | asleep (hi : i ∈ pool.available.waiting) (hlive : cancelled = false) :
      Looked pool make cancelled i .rests (.comes .waits) pool []
  | gaveUp (hi : i ∈ pool.available.known) (hcancelled : cancelled = true) :
      Looked pool make cancelled i .rests (.comes (.refused .cancelled)) (pool.abandon i).1
        (pool.abandon i).2
  | shut (hi : i ∉ pool.available.waiting) (hclosed : pool.closed = true) :
      Looked pool make cancelled i .rests (.comes (.refused .poolClosed)) (pool.rouse i) []
  | entered (hi : i ∉ pool.available.waiting) (hopen : pool.closed = false) :
      Looked pool make cancelled i .rests (.goesOn .opened) (pool.rouse i) []
  | taken {p : P} {rest : List P} (hidle : pool.idle = p :: rest) :
      Looked pool make cancelled i .opened (.comes (.lent p)) { pool with idle := rest } []
  | missed (hidle : pool.idle = []) :
      Looked pool make cancelled i .opened (.goesOn .bare) pool []
  | grown (hsize : pool.size < pool.maxSize) :
      Looked pool make cancelled i .bare (.comes (.lent (make pool.created)))
        { pool with size := pool.size + 1, created := pool.created + 1 } []
  | filled (hsize : pool.maxSize ≤ pool.size) :
      Looked pool make cancelled i .bare (.goesOn .full) pool []
  | enrolled : Looked pool make cancelled i .full
      (.goesOn (.enrolled (pool.available.sleepOrTake i).2))
      { pool with available := (pool.available.sleepOrTake i).1 } []
  | found {took : Bool} {p : P} {rest : List P} (hidle : pool.idle = p :: rest) :
      Looked pool make cancelled i (.enrolled took) (.comes (.lent p))
        ({ pool with idle := rest }.abandon i).1 ({ pool with idle := rest }.abandon i).2
  | lain (hidle : pool.idle = []) :
      Looked pool make cancelled i (.enrolled false) (.goesOn .rests) pool []
  | woken (hidle : pool.idle = []) :
      Looked pool make cancelled i (.enrolled true) (.goesOn .awake) pool []
  | dropped (hcancelled : cancelled = true) :
      Looked pool make cancelled i .awake (.comes (.refused .cancelled)) pool []
  | shutAwake (hclosed : pool.closed = true) :
      Looked pool make cancelled i .awake (.comes (.refused .poolClosed)) pool []
  | again (hopen : pool.closed = false) :
      Looked pool make cancelled i .awake (.goesOn .opened) pool []

/-- Who neither sleeps nor sees that its wait has been cancelled begins a look. -/
theorem looked_enter (cancelled : Bool) (hi : i ∉ pool.available.waiting) :
    Looked pool make cancelled i .rests pool.enter (pool.rouse i) [] := by
  unfold enter
  cases hclosed : pool.closed with
  | true => exact .shut hi hclosed
  | false => exact .entered hi hclosed

theorem step_looked (pool : Pool P) (make : Nat → P) (cancelled cancelFirst : Bool) (i : Nat)
    (look : Look) :
    Looked pool make cancelled i look (pool.step make cancelled cancelFirst i look).1
      (pool.step make cancelled cancelFirst i look).2.1
      (pool.step make cancelled cancelFirst i look).2.2 := by
  cases look with
  | rests =>
    simp only [step, giveUp]
    split
    · rename_i hsleeps
      have hi := Notify.sleeps_iff.mp hsleeps
      cases cancelled with
      | true => exact .gaveUp (Notify.mem_known.mpr (.inl hi)) rfl
      | false => exact .asleep hi rfl
    · rename_i hsleeps
      have hi : i ∉ pool.available.waiting := fun hi => hsleeps (Notify.sleeps_iff.mpr hi)
      have hlooked : Looked pool make cancelled i .rests pool.enter (pool.rouse i) [] :=
        looked_enter cancelled hi
      unfold rouse Notify.rouse at hlooked
      split
      · rename_i htake
        rw [htake] at hlooked
        exact hlooked
      · rename_i available htake
        rw [htake] at hlooked
        split
        · rename_i hcancel
          have hwoken : i ∈ pool.available.woken := by
            by_contra hno
            rw [Notify.takeWakeUp_eq_none_iff.mpr hno] at htake
            cases htake
          exact .gaveUp (Notify.mem_known.mpr (.inr hwoken)) (Bool.and_eq_true_iff.mp hcancel).1
        · exact hlooked
  | opened =>
    simp only [step]
    split
    · rename_i hidle
      exact .taken hidle
    · rename_i hidle
      exact .missed hidle
  | bare =>
    simp only [step]
    split
    · rename_i hsize
      exact .grown hsize
    · rename_i hsize
      exact .filled (Nat.le_of_not_lt hsize)
  | full => exact .enrolled
  | enrolled took =>
    simp only [step]
    split
    · rename_i hidle
      exact .found hidle
    · rename_i hidle
      cases took with
      | true => exact .woken hidle
      | false => exact .lain hidle
  | awake =>
    simp only [step, enter]
    split
    · rename_i hcancel
      exact .dropped (Bool.and_eq_true_iff.mp hcancel).1
    · cases hclosed : pool.closed with
      | true => exact .shutAwake hclosed
      | false => exact .again hclosed

/-- How many steps a call takes at most until it ends or waits, if nobody else uses the pool. It goes
round once more for a wake-up that is kept. -/
def stepsLeft (pool : Pool P) (i : Nat) : Look → Nat
  | .rests => if i ∈ pool.available.waiting then 1 else 6 + again pool
  | .opened => 5 + again pool
  | .bare => 4 + again pool
  | .full => 3 + again pool
  | .enrolled true => 7 + again pool
  | .enrolled false => if i ∈ pool.available.waiting then 2 else 7 + again pool
  | .awake => 6 + again pool
where
  again (pool : Pool P) : Nat := if pool.available.permit then 5 else 0

theorem Looked.stepsLeft_lt {cancelled : Bool} {look look' : Look} {woken : List Nat}
    (h : Looked pool make cancelled i look (.goesOn look') pool' woken) :
    pool'.stepsLeft i look' < pool.stepsLeft i look := by
  cases h with
  | entered hi => simp [stepsLeft, stepsLeft.again, rouse, hi]
  | enrolled =>
    rcases Notify.sleepOrTake_cases pool.available i with ⟨hp, he⟩ | ⟨hp, he⟩ <;> rw [he] <;>
      simp [stepsLeft, stepsLeft.again, hp]
  | lain => by_cases hi : i ∈ pool.available.waiting <;> simp [stepsLeft, stepsLeft.again, hi]
  | missed | filled | woken | again => simp [stepsLeft, stepsLeft.again]

theorem stepsLeft_pos (pool : Pool P) (i : Nat) (look : Look) : 0 < pool.stepsLeft i look := by
  unfold stepsLeft
  split
  case h_1 | h_6 => split <;> omega
  all_goals omega

/-- No more steps than that make a difference. -/
theorem steps_eq_of_le (cancelled cancelFirst : Bool) {n m : Nat} {look : Look}
    (hn : pool.stepsLeft i look ≤ n) (hm : pool.stepsLeft i look ≤ m) :
    steps make cancelled cancelFirst i n pool look = steps make cancelled cancelFirst i m pool look := by
  have hpos := pool.stepsLeft_pos i look
  induction n generalizing m pool look with
  | zero => omega
  | succ n ih =>
    cases m with
    | zero => omega
    | succ m =>
      have hlooked := step_looked pool make cancelled cancelFirst i look
      simp only [steps]
      generalize pool.step make cancelled cancelFirst i look = stepped at hlooked ⊢
      obtain ⟨progress, pool', woken⟩ := stepped
      cases progress with
      | comes => rfl
      | goesOn look' =>
        have hlt := hlooked.stepsLeft_lt
        dsimp only at hlt ⊢
        have hleft : pool'.stepsLeft i look' ≤ n ∧ pool'.stepsLeft i look' ≤ m := by omega
        rw [ih hleft.1 hleft.2 (pool'.stepsLeft_pos i look')]

/-- A look that nobody interrupts comes to its end. -/
theorem steps_eq_attempt (pool : Pool P) (make : Nat → P) (cancelled cancelFirst : Bool) (i : Nat)
    {n : Nat} (hn : 11 ≤ n) :
    steps make cancelled cancelFirst i n pool .rests = pool.attempt make cancelled cancelFirst i := by
  have hle : pool.stepsLeft i .rests ≤ 11 := by
    simp only [stepsLeft, stepsLeft.again]
    split
    · omega
    · split <;> omega
  exact steps_eq_of_le cancelled cancelFirst (Nat.le_trans hle hn) hle

/-- What a step can do to the publishers of a pool. -/
inductive Tried (pool : Pool P) (make : Nat → P) : Look → Progress P → Pool P → Prop where
  | nothing {look : Look} {progress : Progress P} {pool' : Pool P}
      (hno : ∀ p, progress ≠ .comes (.lent p)) (h : Alike pool pool') :
      Tried pool make look progress pool'
  | taken {look : Look} {p : P} {rest : List P} {pool' : Pool P} (hidle : pool.idle = p :: rest)
      (h : Alike { pool with idle := rest } pool') : Tried pool make look (.comes (.lent p)) pool'
  | grown (hsize : pool.size < pool.maxSize) :
      Tried pool make .bare (.comes (.lent (make pool.created)))
        { pool with size := pool.size + 1, created := pool.created + 1 }

variable {cancelled : Bool} {look : Look} {progress : Progress P} {woken : List Nat}

theorem Looked.tried (h : Looked pool make cancelled i look progress pool' woken) :
    Tried pool make look progress pool' := by
  cases h with
  | gaveUp => exact .nothing nofun (alike_abandon pool i)
  | shut | entered | enrolled => exact .nothing nofun ⟨rfl, rfl, rfl, rfl, rfl⟩
  | taken hidle => exact .taken hidle (.refl _)
  | grown hsize => exact .grown hsize
  | found hidle => exact .taken hidle (alike_abandon _ i)
  | asleep | missed | filled | lain | woken | dropped | shutAwake | again =>
    exact .nothing nofun (.refl pool)

/-- Who is lent nothing leaves the publishers as they are. -/
theorem Looked.alike (h : Looked pool make cancelled i look progress pool' woken)
    (hno : ∀ p, progress ≠ .comes (.lent p)) : Alike pool pool' := by
  cases h.tried with
  | nothing _ ha => exact ha
  | taken => exact absurd rfl (hno _)
  | grown => exact absurd rfl (hno _)

/-- Who is about to see whether there may be more publishers has just found none idle. -/
theorem Looked.bare (h : Looked pool make cancelled i look (.goesOn .bare) pool' woken) :
    pool.idle = [] ∧ pool' = pool := by
  cases h with
  | missed hidle => exact ⟨hidle, rfl⟩

/-- Who gets no publisher has given up, or the pool has been closed. -/
theorem Looked.refused {e : PublishError}
    (h : Looked pool make cancelled i look (.comes (.refused e)) pool' woken) :
    e = .cancelled ∨ e = .poolClosed := by
  cases h with
  | gaveUp | dropped => exact .inl rfl
  | shut | shutAwake => exact .inr rfl

end Pool

namespace Pooling

/-! ## The protocol of a call -/

/-- How far a call has come. -/
inductive Stage where
  | free
  /-- It has borrowed a publisher. -/
  | borrowing
  /-- It has drained the pool, and this many publishers are still to be closed. -/
  | closing (left : Nat)

/-- What a call came to. -/
inductive Result where
  /-- The caller has got a publisher, or an error. -/
  | acquired (result : Except PublishError ChannelPublisher)
  | published (result : Except PublishError Unit)
  | ended

/-- The steps of a call. -/
inductive Moves : Stage → (r : Request) → Requests.Answer r → Stage → Prop where
  | session {stage : Stage} {r : Transport.Request} (a : Requests.Answer r) :
      Moves stage (.session r) a stage
  | lent {guarantee : Guarantee} {cancel : Nat} (publisher : ChannelPublisher) :
      Moves .free (.acquire guarantee cancel) (.ok publisher) .borrowing
  | refused {guarantee : Guarantee} {cancel : Nat} (e : PublishError) :
      Moves .free (.acquire guarantee cancel) (.error e) .free
  | putBack {guarantee : Guarantee} {publisher : ChannelPublisher}
      (late : Option ChannelPublisher) :
      Moves .borrowing (.putBack guarantee publisher) late .free
  | drain {guarantee : Guarantee} (idle : List ChannelPublisher) :
      Moves .free (.drain guarantee) idle (.closing idle.length)
  | shrink {guarantee : Guarantee} {left : Nat} :
      Moves (.closing (left + 1)) (.shrink guarantee) () (.closing left)
  | detach {stage : Stage} {publisher : ChannelPublisher} :
      Moves stage (.detach publisher) () stage

/-- How a call stands that has come to this: only who was lent a publisher has one. -/
def Result.At : Result → Stage → Prop
  | .acquired (.ok _), stage => stage = .borrowing
  | .acquired (.error _), stage => stage = .free
  | .published _, stage => stage = .free
  | .ended, stage => stage = .free ∨ stage = .closing 0

variable {α : Type} {stage : Stage} {guarantee : Guarantee} {post : α → Stage → Prop}

/-- To talk to the connection concerns no pool. -/
theorem obeys_session (p : Transport.Session α) :
    (session p).Obeys Moves (fun _ stage' => stage' = stage) stage := by
  induction p with
  | done a => rfl
  | ask r next ih =>
    obtain ⟨a⟩ := Transport.nonempty_answer r
    refine ⟨⟨a, stage, .session a⟩, fun a stage' hm => ?_⟩
    cases hm with
    | session => exact ih a

theorem obeys_release (publisher : ChannelPublisher) :
    (release guarantee publisher).Obeys Moves (fun _ stage => stage = .free) .borrowing := by
  refine ⟨⟨none, .free, .putBack none⟩, fun late stage hm => ?_⟩
  cases hm with
  | putBack =>
    cases late with
    | none => rfl
    | some late =>
      refine ⟨⟨(), .free, .detach⟩, fun _ stage hm => ?_⟩
      cases hm with
      | detach => rfl

theorem obeys_acquire (cancel : Nat) {next : Except PublishError ChannelPublisher → Action α}
    (hok : ∀ publisher, (next (.ok publisher)).Obeys Moves post .borrowing)
    (herror : ∀ e, (next (.error e)).Obeys Moves post .free) :
    ((acquire guarantee cancel).bind next).Obeys Moves post .free := by
  refine ⟨⟨_, _, .refused .cancelled⟩, fun a stage hm => ?_⟩
  cases hm with
  | lent publisher => exact hok publisher
  | refused e => exact herror e

/-- A publish gives back what it has borrowed, whatever came of the sending. -/
theorem obeys_publish (cancel : Nat) (publishing : Publishing) :
    (publish guarantee cancel publishing).Obeys Moves (fun _ stage => stage = .free) .free := by
  refine obeys_acquire cancel (fun publisher => ?_) fun e => rfl
  refine ((obeys_session (publisher.send publishing)).mono fun sent stage hstage => ?_).bind
  subst hstage
  obtain ⟨result, publisher⟩ := sent
  refine ((obeys_release publisher).mono fun _ stage hstage => ?_).bind
  cases result <;> exact hstage

theorem obeys_closeEach (publishers : List ChannelPublisher) :
    (closeEach guarantee publishers).Obeys Moves (fun _ stage => stage = .closing 0)
      (.closing publishers.length) := by
  induction publishers with
  | nil => rfl
  | cons publisher rest ih =>
    refine ((obeys_session publisher.close).mono fun _ stage hstage => ?_).bind
    subst hstage
    refine ⟨⟨(), _, .shrink⟩, fun _ stage hm => ?_⟩
    cases hm with
    | shrink => exact ih

theorem obeys_closePool :
    (closePool guarantee).Obeys Moves (fun _ stage => stage = .closing 0) .free := by
  refine ⟨⟨[], _, .drain []⟩, fun idle stage hm => ?_⟩
  cases hm with
  | drain => exact obeys_closeEach idle

end Pooling

end Courier
