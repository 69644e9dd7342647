import RingChannel.RingBuffer.Waiting

/-!
# Attempts

The waiting forms of insert and removal differ in how they wait, not in what they do: one attempt
after another, each with what the one before has left, until one goes well or the patience is gone.
With the rounds that a backoff has left, or with the readings that come before a deadline, each of
them makes the same attempts.
-/

namespace RingChannel

/-- What an attempt comes to: a result, or a state to try again from. -/
inductive Attempt (σ ρ : Type) where
  | well (result : ρ)
  | vain (state : σ)

/-- One attempt, and up to `more` that follow as long as all are in vain: the states that they are
made in, and what the last one comes to. -/
def attempts {σ ρ : Type} (attempt : σ → Checked (Attempt σ ρ)) :
    (more : Nat) → σ → Checked (List σ × Attempt σ ρ)
  | 0, state => do
      let last ← attempt state
      .ok ([state], last)
  | more + 1, state => do
      match ← attempt state with
      | .well result => .ok ([state], .well result)
      | .vain next =>
          let (rest, last) ← attempts attempt more next
          .ok (state :: rest, last)

section attempts

variable {σ ρ : Type} {attempt : σ → Checked (Attempt σ ρ)}

theorem attempts_zero {state : σ} {last : Attempt σ ρ} (h : attempt state = .ok last) :
    attempts attempt 0 state = .ok ([state], last) := by
  simp only [attempts, h, ok_bind]

theorem attempts_of_well {state : σ} {result : ρ} (h : attempt state = .ok (.well result))
    (more : Nat) : attempts attempt more state = .ok ([state], .well result) := by
  cases more <;> simp only [attempts, h, ok_bind]

/-- Attempts that are all in vain leave a trail of states, each the next one's start. -/
theorem attempts_of_vain (trail : Nat → σ)
    (h : ∀ n, attempt (trail n) = .ok (.vain (trail (n + 1)))) (more : Nat) :
    attempts attempt more (trail 0) =
      .ok ((List.range (more + 1)).map trail, .vain (trail (more + 1))) := by
  induction more generalizing trail with
  | zero =>
      rw [attempts, h]
      rfl
  | succ more ih =>
      have hrest := ih (fun n => trail (n + 1)) (fun n => h (n + 1))
      rw [attempts, h, ok_bind]
      simp only [hrest, ok_bind]
      rw [List.range_succ_eq_map (n := more + 1), List.map_cons, List.map_map]
      rfl

end attempts

namespace RingBuffer

variable {α : Type}

/-! ## Inserts -/

/-- An insert as an attempt: in vain, it leaves the item that was handed back. -/
def offer (state : α × RingBuffer α) : Checked (Attempt (α × RingBuffer α) (RingBuffer α)) := do
  let (rejected, ring) ← state.2.push state.1
  match rejected with
  | none => .ok (.well ring)
  | some item => .ok (.vain (item, ring))

def handedBack : Attempt (α × RingBuffer α) (RingBuffer α) → Option α × RingBuffer α
  | .well ring => (none, ring)
  | .vain (item, ring) => (some item, ring)

theorem push_eq_offer (item : α) (ring : RingBuffer α) :
    ring.push item = (offer (item, ring)).map handedBack := by
  unfold offer
  cases ring.push item with
  | error fault => rfl
  | ok answer => cases answer with | mk rejected ring => cases rejected <;> rfl

/-- Until the deadline an insert is tried once for each reading before it, and once more. -/
theorem pushUntil_eq (item : α) (readings : Nat) (ring : RingBuffer α) :
    pushUntil item readings ring =
      (attempts offer readings (item, ring)).map fun made => handedBack made.2 := by
  induction readings generalizing item ring with
  | zero =>
      rw [pushUntil, push_eq_offer, attempts]
      cases offer (item, ring) <;> rfl
  | succ readings ih =>
      rw [pushUntil, push_eq_offer, attempts]
      cases offer (item, ring) with
      | error fault => rfl
      | ok attempt =>
          cases attempt with
          | well last => rfl
          | vain state =>
              simp only [Except.map, handedBack, ok_bind, ih]
              cases attempts offer readings state <;> rfl

theorem pushWaiting_eq (item : α) (backoff : Backoff) (ring : RingBuffer α) :
    pushWaiting item backoff ring = pushUntil item backoff.remaining ring := by
  induction hleft : backoff.remaining generalizing item backoff ring with
  | zero =>
      have hdone := Backoff.remaining_eq_zero_iff.1 hleft
      rw [pushWaiting, pushUntil]
      cases ring.push item with
      | error fault => rfl
      | ok answer => cases answer with | mk rejected ring => cases rejected <;> simp [hdone]
  | succ left ih =>
      obtain ⟨hmore, hsnooze⟩ := Backoff.snooze_of_remaining hleft
      rw [pushWaiting, pushUntil]
      simp only [hmore, ih _ _ _ hsnooze]
      rfl

theorem pushWithBackoff_eq (item : α) (ring : RingBuffer α) :
    ring.pushWithBackoff item =
      (attempts offer 11 (item, ring)).map fun made => handedBack made.2 := by
  rw [pushWithBackoff, pushWaiting_eq]
  exact pushUntil_eq item 11 ring

/-! ## Removals -/

def request (ring : RingBuffer α) : Checked (Attempt (RingBuffer α) (α × RingBuffer α)) := do
  let (removed, ring) ← ring.pop
  match removed with
  | some item => .ok (.well (item, ring))
  | none => .ok (.vain ring)

def handedOut : Attempt (RingBuffer α) (α × RingBuffer α) → Option α × RingBuffer α
  | .well (item, ring) => (some item, ring)
  | .vain ring => (none, ring)

theorem pop_eq_request (ring : RingBuffer α) : ring.pop = (request ring).map handedOut := by
  unfold request
  cases ring.pop with
  | error fault => rfl
  | ok answer => cases answer with | mk removed ring => cases removed <;> rfl

theorem popUntil_eq (readings : Nat) (ring : RingBuffer α) :
    popUntil readings ring = (attempts request readings ring).map fun made => handedOut made.2 := by
  induction readings generalizing ring with
  | zero =>
      rw [popUntil, pop_eq_request, attempts]
      cases request ring <;> rfl
  | succ readings ih =>
      rw [popUntil, pop_eq_request, attempts]
      cases request ring with
      | error fault => rfl
      | ok attempt =>
          cases attempt with
          | well last => rfl
          | vain next =>
              simp only [Except.map, handedOut, ok_bind, ih]
              cases attempts request readings next <;> rfl

theorem popWaiting_eq (backoff : Backoff) (ring : RingBuffer α) :
    popWaiting backoff ring = popUntil backoff.remaining ring := by
  induction hleft : backoff.remaining generalizing backoff ring with
  | zero =>
      have hdone := Backoff.remaining_eq_zero_iff.1 hleft
      rw [popWaiting, popUntil]
      cases ring.pop with
      | error fault => rfl
      | ok answer => cases answer with | mk removed ring => cases removed <;> simp [hdone]
  | succ left ih =>
      obtain ⟨hmore, hsnooze⟩ := Backoff.snooze_of_remaining hleft
      rw [popWaiting, popUntil]
      simp only [hmore, ih _ _ hsnooze]
      rfl

theorem popWithBackoff_eq (ring : RingBuffer α) :
    ring.popWithBackoff = (attempts request 11 ring).map fun made => handedOut made.2 := by
  rw [popWithBackoff, popWaiting_eq]
  exact popUntil_eq 11 ring

end RingBuffer

end RingChannel
