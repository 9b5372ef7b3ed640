import Courier.Proofs.Publisher.Lending

/-!
# Waiting for a publisher

`Operated` is one operation on a pool, whichever it is, on behalf of one call whose look it takes on.
`Fair` is what all operations keep (`Operated.fair`), given how far each call has come: a pool has
written down only those that are down to be woken; who sleeps in an open pool, or is about to lie down,
has left no room for another publisher; and as long as a call sleeps that has nothing more to look
for, each idle publisher of an open pool has someone under way to it. That is one who was woken
and has not looked yet, or one who has just found the pool open: he will look next what is idle.

The books are balanced by each operation (`Operated.balance`). `Bounded` is what the numbers of a pool
keep.
-/

namespace Courier.Pool

open Notify (Roused)

variable {P : Type} {pool pool' : Pool P} {make : Nat → P} {cancelled : Bool} {i x : Nat}
  {look look' : Look} {looks looks' : Nat → Look} {woken : List Nat}

/-- May the pool have the call written down, to be woken or as one that was? -/
def Look.listed : Look → Bool
  | .rests | .enrolled false => true
  | _ => false

/-- Where a call is after a step. One that has come to its end looks no more. -/
def Progress.next : Progress P → Look
  | .comes _ => .rests
  | .goesOn look => look

/-! ## All operations -/

/-- One operation on a pool, on behalf of the call `i`, how far that has come before and after it, and
whom it wakes. -/
inductive Operated (make : Nat → P) (i : Nat) :
    Look → Look → Pool P → Pool P → List Nat → Prop where
  | none {look : Look} {pool : Pool P} : Operated make i look look pool pool []
  | looked {pool pool' : Pool P} {cancelled : Bool} {look : Look} {progress : Progress P}
      {woken : List Nat} (h : Looked pool make cancelled i look progress pool' woken) :
      Operated make i look progress.next pool pool' woken
  | abandon {pool : Pool P} :
      Operated make i .rests .rests pool (pool.abandon i).1 (pool.abandon i).2
  | kept {look : Look} {pool : Pool P} (publisher : P) (hopen : pool.closed = false) :
      Operated make i look look pool
        { pool with idle := pool.idle ++ [publisher], available := pool.available.notifyOne.1 }
        pool.available.notifyOne.2
  | drained {look : Look} {pool : Pool P} (hopen : pool.closed = false) :
      Operated make i look look pool
        { pool with idle := [], closed := true, available := pool.available.notifyAll.1 }
        pool.available.notifyAll.2
  /-- A publisher of a closed pool has come back, or has been closed. -/
  | shrink {look : Look} {pool : Pool P} (hclosed : pool.closed = true) :
      Operated make i look look pool pool.shrink []

/-- No call sleeps that could have a publisher, unless the pool is closed. -/
structure Fair (pool : Pool P) (looks : Nat → Look) : Prop where
  nodup : pool.available.known.Nodup
  full : pool.available.waiting ≠ [] → pool.closed = false → pool.maxSize ≤ pool.size
  unknown : ∀ x, (looks x).listed = false → x ∉ pool.available.known
  filled : ∀ x, looks x = .full → pool.closed = false → pool.maxSize ≤ pool.size
  /-- Someone is under way to each publisher that is idle. -/
  covered : pool.closed = false → ∀ x ∈ pool.available.waiting, looks x = .rests →
    ∃ openers : List Nat, openers.Nodup ∧ (∀ y ∈ openers, looks y = .opened) ∧
      pool.idle.length ≤ pool.available.handed.length + openers.length

theorem fair_new (config : PoolConfig) (make : Nat → P) (looks : Nat → Look) (hnone : ∀ x, looks x = .rests) :
    (Pool.new config make).Fair looks where
  nodup := List.nodup_nil
  full h := absurd rfl h
  unknown x _ := List.not_mem_nil
  filled x h := by
    rw [hnone x] at h
    cases h
  covered _ x hx := absurd hx List.not_mem_nil

/-- An open pool was open before, and has not become smaller. -/
theorem Operated.opened (ho : Operated make i look look' pool pool' woken)
    (hopen : pool'.closed = false) : pool.closed = false ∧ pool'.maxSize = pool.maxSize ∧
      pool.size ≤ pool'.size := by
  cases ho with
  | none => exact ⟨hopen, rfl, Nat.le_refl _⟩
  | looked h =>
    cases h.tried with
    | nothing hno ha => exact ⟨ha.closed ▸ hopen, ha.maxSize, Nat.le_of_eq ha.size.symm⟩
    | taken hidle ha => exact ⟨ha.closed ▸ hopen, ha.maxSize, Nat.le_of_eq ha.size.symm⟩
    | grown hsize => exact ⟨hopen, rfl, Nat.le_succ _⟩
  | abandon => exact ⟨hopen, rfl, Nat.le_refl _⟩
  | kept => exact ⟨hopen, rfl, Nat.le_refl _⟩
  | drained => cases hopen
  | shrink hclosed => exact absurd (hclosed.symm.trans hopen) (by decide)

/-- A pool is closed once and for good. -/
theorem Operated.closed (ho : Operated make i look look' pool pool' woken)
    (hclosed : pool.closed = true) : pool'.closed = true := by
  cases hopen : pool'.closed with
  | true => rfl
  | false => exact absurd (hclosed.symm.trans (ho.opened hopen).1) (by decide)

/-! ## Whom they wake -/

theorem Operated.nodup (ho : Operated make i look look' pool pool' woken)
    (hn : pool.available.known.Nodup) (hi : look.listed = false → i ∉ pool.available.known) :
    pool'.available.known.Nodup := by
  cases ho with
  | none => exact hn
  | looked h =>
    cases h with
    | gaveUp => exact Notify.nodup_abandon hn i
    | shut | entered => exact Notify.nodup_rouse hn i
    | enrolled => exact Notify.nodup_sleepOrTake hn (hi rfl)
    | found => exact Notify.nodup_abandon hn i
    | asleep | taken | missed | grown | filled | lain | woken | dropped | shutAwake | again => exact hn
  | abandon => exact Notify.nodup_abandon hn i
  | kept => exact (Notify.known_notifyOne _).nodup_iff.mpr hn
  | drained => exact (Notify.known_notifyAll _).nodup_iff.mpr hn
  | shrink => exact hn

theorem Operated.roused (ho : Operated make i look look' pool pool' woken)
    (hn : pool.available.known.Nodup) : Roused i pool.available pool'.available woken := by
  cases ho with
  | none => exact .refl i _
  | looked h =>
    cases h with
    | gaveUp => exact Notify.roused_abandon hn i
    | shut | entered => exact Notify.roused_rouse i _
    | enrolled => exact Notify.roused_sleepOrTake i _
    | found => exact Notify.roused_abandon hn i
    | asleep | taken | missed | grown | filled | lain | woken | dropped | shutAwake | again =>
      exact .refl i _
  | abandon => exact Notify.roused_abandon hn i
  | kept => exact Notify.roused_notifyOne i _
  | drained => exact Notify.roused_notifyAll i _
  | shrink => exact .refl i _

/-- Only who has found the pool full lies down in it. -/
theorem Operated.waiting (ho : Operated make i look look' pool pool' woken)
    (hx : x ∈ pool'.available.waiting) :
    x ∈ pool.available.waiting ∨ x = i ∧ look = .full ∧ look' = .enrolled false := by
  cases ho with
  | none => exact .inl hx
  | looked h =>
    cases h with
    | gaveUp => exact .inl (Notify.mem_waiting_of_abandon hx)
    | shut | entered => exact .inl (Notify.waiting_rouse .. ▸ hx)
    | enrolled =>
      rcases Notify.sleepOrTake_cases pool.available i with ⟨-, he⟩ | ⟨-, he⟩
      · rw [he] at hx
        exact .inl hx
      · rw [he] at hx ⊢
        exact (List.mem_append.mp hx).imp_right fun hx => ⟨List.mem_singleton.mp hx, rfl, rfl⟩
    | found => exact .inl (Notify.mem_waiting_of_abandon hx)
    | asleep | taken | missed | grown | filled | lain | woken | dropped | shutAwake | again =>
      exact .inl hx
  | abandon => exact .inl (Notify.mem_waiting_of_abandon hx)
  | kept => exact .inl (Notify.mem_waiting_of_notifyOne hx)
  | drained => cases hx
  | shrink => exact .inl hx

/-- A call that is neither asleep nor down to be woken is not written down. -/
theorem Operated.unknown (ho : Operated make i look look' pool pool' woken)
    (hn : pool.available.known.Nodup) (hi : look.listed = false → i ∉ pool.available.known)
    (hlook : look'.listed = false) : i ∉ pool'.available.known := by
  cases ho with
  | none => exact hi hlook
  | looked h =>
    cases h with
    | entered hasleep =>
      exact Notify.not_mem_known_rouse hn hasleep
    | enrolled =>
      rcases Notify.sleepOrTake_cases pool.available i with ⟨-, he⟩ | ⟨-, he⟩
      · rw [he]
        exact hi rfl
      · rw [he] at hlook
        cases hlook
    | missed | filled | woken | again => exact hi rfl
    | asleep | gaveUp | shut | taken | grown | found | lain | dropped | shutAwake => cases hlook
  | abandon => cases hlook
  | kept => exact fun hmem => hi hlook ((Notify.known_notifyOne _).mem_iff.mp hmem)
  | drained => exact fun hmem => hi hlook ((Notify.known_notifyAll _).mem_iff.mp hmem)
  | shrink => exact hi hlook

/-- Who waits has lain down, and nothing else happens. -/
theorem Looked.waits (h : Looked pool make cancelled i look (.comes .waits) pool' woken) :
    look = .rests ∧ i ∈ pool.available.waiting ∧ cancelled = false ∧ pool' = pool ∧ woken = [] := by
  cases h with
  | asleep hi hlive => exact ⟨rfl, hi, hlive, rfl, rfl⟩

/-- The pool knows nobody who has come to an end. -/
theorem Looked.gone {attempt : Attempt P}
    (h : Looked pool make cancelled i look (.comes attempt) pool' woken)
    (hn : pool.available.known.Nodup) (hi : look.listed = false → i ∉ pool.available.known)
    (hends : attempt ≠ .waits) : i ∉ pool'.available.known := by
  cases h with
  | asleep => exact absurd rfl hends
  | gaveUp => exact Notify.not_mem_known_abandon hn i
  | shut hasleep => exact Notify.not_mem_known_rouse hn hasleep
  | found => exact Notify.not_mem_known_abandon hn i
  | taken | grown | dropped | shutAwake => exact hi rfl

/-! ## Someone is under way to each idle publisher -/

/-- One more is under way if the call has found the pool open and looks next what is idle. -/
def Look.way : Look → Nat
  | .opened => 1
  | _ => 0

/-- What is idle more, or who is under way less, is made up for by the other, as long as someone sleeps. -/
theorem Operated.balance (ho : Operated make i look look' pool pool' woken)
    (hopen : pool'.closed = false) (hw : pool'.available.waiting ≠ []) :
    pool'.idle = [] ∨ pool'.idle.length + pool.available.handed.length + look.way ≤
      pool.idle.length + pool'.available.handed.length + look'.way := by
  cases ho with
  | none => exact .inr (Nat.le_refl _)
  | looked h =>
    cases h with
    | gaveUp =>
      right
      have hhanded := Notify.handed_abandon hw
      simp only [Progress.next, Look.way, Pool.abandon] at *
      omega
    | shut hi hclosed => exact absurd (hclosed.symm.trans hopen) (by decide)
    | entered =>
      right
      have hhanded := Notify.handed_rouse pool.available i
      simp only [Progress.next, Look.way, Pool.rouse] at *
      omega
    | taken hidle =>
      right
      simp only [Progress.next, Look.way, hidle, List.length_cons]
      omega
    | missed hidle | lain hidle | woken hidle => exact .inl hidle
    | enrolled =>
      right
      rcases Notify.sleepOrTake_cases pool.available i with ⟨-, he⟩ | ⟨-, he⟩ <;> rw [he] <;>
        simp [Progress.next, Look.way]
    | found hidle =>
      right
      have hhanded := Notify.handed_abandon hw
      simp only [Progress.next, Look.way, Pool.abandon, hidle, List.length_cons] at *
      omega
    | again => exact .inr (by simp [Progress.next, Look.way])
    | asleep | grown | filled | dropped | shutAwake => exact .inr (Nat.le_refl _)
  | abandon =>
    right
    have hhanded := Notify.handed_abandon hw
    simp only [Pool.abandon] at *
    omega
  | kept =>
    right
    have hhanded := Notify.handed_notifyOne hw
    simp only [List.length_append, List.length_singleton] at *
    omega
  | drained => cases hopen
  | shrink hclosed => exact absurd (hclosed.symm.trans hopen) (by decide)

/-- Who has lain down for good has found nothing idle. -/
theorem Operated.settled (ho : Operated make i look look' pool pool' woken)
    (hn : pool.available.known.Nodup) (hunknown : look.listed = false → i ∉ pool.available.known)
    (hi : i ∈ pool'.available.waiting) (hlook : look' = .rests) :
    look = .rests ∨ pool'.idle = [] := by
  have gone : ∀ {n : Notify}, n.known.Nodup → i ∉ (n.abandon i).1.waiting := fun hn hmem =>
    Notify.not_mem_known_abandon hn i (Notify.mem_known.mpr (.inl hmem))
  cases ho with
  | none | kept | drained | shrink => exact .inl hlook
  | abandon => exact .inl rfl
  | looked h =>
    cases h with
    | asleep | gaveUp | shut => exact .inl rfl
    | found => exact absurd hi (gone hn)
    | lain hidle => exact .inr hidle
    | entered | missed | filled | enrolled | woken | again => cases hlook
    | taken | grown | dropped | shutAwake =>
      exact absurd (Notify.mem_known.mpr (.inl hi)) (hunknown rfl)

/-- Whoever was under way goes on to be, but the call that has looked. -/
theorem exists_openers {openers : List Nat} (hnodup : openers.Nodup)
    (hway : ∀ y ∈ openers, looks y = .opened) (hothers : ∀ x ≠ i, looks' x = looks x) :
    ∃ openers' : List Nat, openers'.Nodup ∧ (∀ y ∈ openers', looks' y = .opened) ∧
      openers.length + (looks' i).way ≤ openers'.length + (looks i).way := by
  by_cases hafter : looks' i = .opened
  · by_cases hbefore : looks i = .opened
    · refine ⟨openers, hnodup, fun y hy => ?_, Nat.le_of_eq (by rw [hafter, hbefore])⟩
      by_cases hyi : y = i
      · rw [hyi, hafter]
      · rw [hothers y hyi, hway y hy]
    · have hi : i ∉ openers := fun hi => hbefore (hway i hi)
      refine ⟨i :: openers, List.nodup_cons.mpr ⟨hi, hnodup⟩, fun y hy => ?_, ?_⟩
      · by_cases hyi : y = i
        · rw [hyi, hafter]
        · rw [hothers y hyi, hway y ((List.mem_cons.mp hy).resolve_left hyi)]
      · rw [hafter, List.length_cons]
        simp [Look.way]
  · refine ⟨openers.erase i, hnodup.erase i, fun y hy => ?_, ?_⟩
    · have hyi : y ≠ i := fun hyi => hnodup.not_mem_erase (hyi ▸ hy)
      rw [hothers y hyi, hway y (List.mem_of_mem_erase hy)]
    · have hnone : (looks' i).way = 0 := by
        cases hl : looks' i with
        | opened => exact absurd hl hafter
        | _ => rfl
      by_cases hi : i ∈ openers
      · have hpos := List.length_pos_of_mem hi
        rw [hnone, List.length_erase_of_mem hi, hway i hi]
        simp only [Look.way]
        omega
      · rw [hnone, List.erase_of_not_mem hi]
        omega

/-! ## What all operations keep -/

theorem Fair.full_operated (h : pool.Fair looks)
    (ho : Operated make i (looks i) (looks' i) pool pool' woken)
    (hw : pool'.available.waiting ≠ []) (hopen : pool'.closed = false) :
    pool'.maxSize ≤ pool'.size := by
  obtain ⟨hopened, hmax, hsize⟩ := ho.opened hopen
  obtain ⟨x, hx⟩ := List.exists_mem_of_ne_nil _ hw
  rw [hmax]
  refine Nat.le_trans ?_ hsize
  rcases ho.waiting hx with hx | ⟨-, hfull, -⟩
  · exact h.full (List.ne_nil_of_mem hx) hopened
  · exact h.filled i hfull hopened

/-- Who is about to lie down has found no room. -/
theorem Operated.filled (ho : Operated make i look look' pool pool' woken) (hlook : look' = .full) :
    pool'.maxSize ≤ pool'.size ∨ look = .full := by
  cases ho with
  | none | kept | drained | shrink => exact .inr hlook
  | abandon => cases hlook
  | looked h =>
    cases h with
    | filled hsize => exact .inl hsize
    | _ => cases hlook

theorem Fair.covered_operated (h : pool.Fair looks)
    (ho : Operated make i (looks i) (looks' i) pool pool' woken)
    (hothers : ∀ x ≠ i, looks' x = looks x) (hopen : pool'.closed = false)
    (hx : x ∈ pool'.available.waiting) (hlook : looks' x = .rests) :
    ∃ openers : List Nat, openers.Nodup ∧ (∀ y ∈ openers, looks' y = .opened) ∧
      pool'.idle.length ≤ pool'.available.handed.length + openers.length := by
  rcases ho.balance hopen (List.ne_nil_of_mem hx) with hnone | hbalance
  · exact ⟨[], List.nodup_nil, nofun, by rw [hnone]; exact Nat.zero_le _⟩
  -- who sleeps now has slept before, or there is nothing idle
  have hbefore : (x ∈ pool.available.waiting ∧ looks x = .rests) ∨ pool'.idle = [] := by
    rcases ho.waiting hx with hw | ⟨rfl, -, hlook'⟩
    · by_cases hxi : x = i
      · subst hxi
        exact (ho.settled h.nodup (h.unknown x) hx hlook).imp_left fun hrests => ⟨hw, hrests⟩
      · exact .inl ⟨hw, (hothers x hxi).symm.trans hlook⟩
    · rw [hlook] at hlook'
      cases hlook'
  rcases hbefore with ⟨hw, hrests⟩ | hnone
  · obtain ⟨openers, hnodup, hway, hle⟩ := h.covered (ho.opened hopen).1 x hw hrests
    obtain ⟨openers', hnodup', hway', hle'⟩ := exists_openers hnodup hway hothers
    exact ⟨openers', hnodup', hway', by omega⟩
  · exact ⟨[], List.nodup_nil, nofun, by rw [hnone]; exact Nat.zero_le _⟩

theorem Operated.fair (ho : Operated make i (looks i) (looks' i) pool pool' woken)
    (h : pool.Fair looks) (hothers : ∀ x ≠ i, looks' x = looks x) : pool'.Fair looks' where
  nodup := ho.nodup h.nodup (h.unknown i)
  full := h.full_operated ho
  unknown x hlook := by
    by_cases hx : x = i
    · subst hx
      exact ho.unknown h.nodup (h.unknown x) hlook
    · rw [hothers x hx] at hlook
      exact fun hmem => h.unknown x hlook ((ho.roused h.nodup).known x hmem hx)
  filled x hlook hopen := by
    obtain ⟨hopened, hmax, hsize⟩ := ho.opened hopen
    have before : looks x = .full → pool'.maxSize ≤ pool'.size := fun hlook => by
      rw [hmax]
      exact Nat.le_trans (h.filled x hlook hopened) hsize
    by_cases hx : x = i
    · subst hx
      exact (ho.filled hlook).elim id before
    · exact before ((hothers x hx).symm.trans hlook)
  covered hopen x hx hlook := h.covered_operated ho hothers hopen hx hlook

/-! ## A closed pool -/

/-- Has the call found the pool open, and is not down to be woken yet? Whether the pool has been closed
meanwhile it does not see. -/
def Look.exposed : Look → Bool
  | .opened | .bare | .full => true
  | _ => false

/-- Nobody sleeps any more in a pool that has just been closed. -/
theorem Operated.shut (ho : Operated make i look look' pool pool' woken)
    (hopen : pool.closed = false) (hclosed : pool'.closed = true) :
    pool'.available.waiting = [] ∧ look' = look := by
  have hne : ∀ {closed : Bool}, closed = pool.closed → closed = true → False := fun h h' => by
    rw [h, hopen] at h'
    cases h'
  cases ho with
  | none => exact (hne rfl hclosed).elim
  | looked h =>
    cases h.tried with
    | nothing hno ha => exact (hne ha.closed hclosed).elim
    | taken hidle ha => exact (hne ha.closed hclosed).elim
    | grown hsize => exact (hne rfl hclosed).elim
  | abandon => exact (hne rfl hclosed).elim
  | kept => exact (hne rfl hclosed).elim
  | drained => exact ⟨rfl, rfl⟩
  | shrink hclosed' => exact (hne rfl hclosed').elim

/-- Who sleeps in a closed pool, or is about to lie down in it, was about to before. -/
theorem Operated.exposed (ho : Operated make i look look' pool pool' woken)
    (hclosed : pool.closed = true) (h : look'.exposed = true ∨ i ∈ pool'.available.waiting) :
    look.exposed = true ∨ i ∈ pool.available.waiting := by
  rcases h with h | h
  · left
    cases ho with
    | none | kept | drained | shrink => exact h
    | abandon => cases h
    | looked hl =>
      cases hl with
      | missed | filled => rfl
      | entered hi hopen => exact absurd (hclosed.symm.trans hopen) (by decide)
      | again hopen => exact absurd (hclosed.symm.trans hopen) (by decide)
      | asleep | gaveUp | shut | taken | grown | enrolled | found | lain | woken | dropped |
          shutAwake => cases h
  · rcases ho.waiting h with h | ⟨-, rfl, -⟩
    · exact .inr h
    · exact .inl rfl

/-- Any other call ends at a closed pool, after one step more if it is down to be woken. -/
theorem Looked.of_closed {progress : Progress P}
    (h : Looked pool make cancelled i look progress pool' woken) (hclosed : pool.closed = true)
    (hidle : pool.idle = []) (hlook : look.exposed = false) (hi : i ∉ pool.available.waiting) :
    progress = .comes (.refused .poolClosed) ∨
      (progress = .comes (.refused .cancelled) ∧ cancelled = true ∧
        (i ∈ pool.available.known ∨ look ≠ .rests)) ∨
      ∃ took look', look = .enrolled took ∧ progress = .goesOn look' ∧
        (look' = .rests ∨ look' = .awake) := by
  cases h with
  | asleep hw => exact absurd hw hi
  | gaveUp hknown hcancelled => exact .inr (.inl ⟨rfl, hcancelled, .inl hknown⟩)
  | shut | shutAwake => exact .inl rfl
  | entered hw hopen => exact absurd (hclosed.symm.trans hopen) (by decide)
  | again hopen => exact absurd (hclosed.symm.trans hopen) (by decide)
  | found hsome =>
    rw [hidle] at hsome
    cases hsome
  | lain => exact .inr (.inr ⟨_, _, rfl, rfl, .inl rfl⟩)
  | woken => exact .inr (.inr ⟨_, _, rfl, rfl, .inr rfl⟩)
  | dropped hcancelled => exact .inr (.inl ⟨rfl, hcancelled, .inr nofun⟩)
  | taken | missed | grown | filled | enrolled => cases hlook

/-- A pool is not larger than it may be, and has nothing to lend once it is closed. -/
structure Bounded (config : PoolConfig) (pool : Pool P) : Prop where
  maxSize : pool.maxSize = config.normalized.maxSize
  size_le : pool.size ≤ pool.maxSize
  emptied : pool.closed = true → pool.idle = []

theorem bounded_new (config : PoolConfig) (make : Nat → P) : Bounded config (.new config make) :=
  ⟨rfl, config.initialSize_le_maxSize_normalized, nofun⟩

theorem Operated.bounded {config : PoolConfig} (ho : Operated make i look look' pool pool' woken)
    (h : Bounded config pool) : Bounded config pool' := by
  cases ho with
  | none => exact h
  | looked hl =>
    cases hl.tried with
    | nothing hno ha =>
      refine ⟨ha.maxSize.trans h.maxSize, ?_, fun hclosed => ?_⟩
      · rw [ha.size, ha.maxSize]
        exact h.size_le
      · rw [ha.idle]
        exact h.emptied (ha.closed ▸ hclosed)
    | taken hidle ha =>
      refine ⟨ha.maxSize.trans h.maxSize, ?_, fun hclosed => ?_⟩
      · rw [ha.size, ha.maxSize]
        exact h.size_le
      · have hnone := h.emptied (ha.closed ▸ hclosed)
        rw [hidle] at hnone
        cases hnone
    | grown hsize => exact ⟨h.maxSize, hsize, h.emptied⟩
  | abandon => exact ⟨h.maxSize, h.size_le, h.emptied⟩
  | kept _ hopen =>
    exact ⟨h.maxSize, h.size_le, fun hclosed => absurd (hclosed.symm.trans hopen) (by decide)⟩
  | drained => exact ⟨h.maxSize, h.size_le, fun _ => rfl⟩
  | shrink => exact ⟨h.maxSize, Nat.le_trans (Nat.sub_le _ _) h.size_le, h.emptied⟩

end Courier.Pool
