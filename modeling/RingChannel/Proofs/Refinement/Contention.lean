import RingChannel.Growable.Contention
import RingChannel.Proofs.Queue.Calls
import RingChannel.Proofs.Refinement.Grow
import RingChannel.Proofs.Refinement.Release

/-!
# A contested drain

Whether the other thread finds room at once or has to wait for the drain, its item goes in behind
those that are left, and the ring is not replaced: a drain that hands over an item makes room.
-/

namespace RingChannel

variable {α : Type}

theorem Queue.remove_append {queue : Queue α} (items : List α) {count : Nat}
    (hle : count ≤ queue.items.length) :
    (queue.append items).remove count = (queue.remove count).append items := by
  obtain ⟨capacity, present, metered, counters⟩ := queue
  have hle : count ≤ present.length := hle
  have hmin : min count (present.length + items.length) = count := by omega
  cases metered <;>
    simp [remove, behead, append, record, Counters.add, List.drop_append_of_le_length hle, hmin,
      Nat.min_eq_left hle]

variable [Item α]

/-- After its first item the handler only notes what it is given. -/
theorem Growable.contestHandler_settled {limit shown : Nat} {item given : α}
    {contest : Growable.Contest α} (hsettled : contest.rival ≠ .idle) (ring : RingBuffer α) :
    Growable.contestHandler limit item shown given contest ring =
      .ok (.proceed, ⟨contest.drained.push given, contest.rival⟩, ring) := by
  obtain ⟨drained, rival⟩ := contest
  cases rival with
  | idle => exact absurd rfl hsettled
  | waiting asked => rfl
  | finished result events => rfl

namespace RingBuffer.Holds

variable {ring : RingBuffer α} {gone : Nat} {queue : Queue α}

theorem drainSettled (h : ring.Holds gone queue) (limit shown : Nat) (item : α) (window : Window)
    (left : Nat) (contest : Growable.Contest α) (hsettled : contest.rival ≠ .idle)
    (hstart : window.start = ring.tail) (hwindow : gone + left ≤ window.count)
    (hle : gone + left ≤ queue.items.length) :
    ∃ next, ring.drainRun (Growable.contestHandler limit item shown) window left gone contest =
        .ok (.returned (), gone + left,
          ⟨contest.drained ++ ((queue.items.drop gone).take left), contest.rival⟩, next) ∧
      next.Holds (gone + left) queue ∧ next.tail = ring.tail := by
  induction left generalizing gone contest ring with
  | zero => exact ⟨ring, by simp [RingBuffer.drainRun], h, rfl⟩
  | succ left ih =>
      have hlt : gone < queue.items.length := by omega
      have hin : gone < window.count := by omega
      obtain ⟨rest, htake, hrest⟩ := h.take hlt
      obtain ⟨next, hrun, hnext, htail⟩ := ih hrest
        ⟨contest.drained.push queue.items[gone], contest.rival⟩ hsettled hstart
        (by omega) (by omega)
      have hcount : gone + 1 + left = gone + (left + 1) := by omega
      rw [hcount] at hrun hnext
      refine ⟨next, ?_, hnext, htail⟩
      rw [List.drop_eq_getElem_cons hlt, List.take_succ_cons]
      unfold RingBuffer.drainRun
      simp only [hstart, ensure_of hin, ok_bind, htake, Growable.contestHandler_settled hsettled]
      refine hrun.trans ?_
      simp

/-- The item of the other thread goes in at once. -/
theorem insertRoomy (h : ring.Holds gone queue) (limit shown : Nat) (item : α)
    (hroom : queue.free ≠ 0) :
    ∃ next, Growable.insert limit item (.now ⟨ring, shown⟩) = .ok ⟨.ok none, [], ⟨next, shown⟩⟩ ∧
      next.Holds gone (queue.append [item]) ∧ next.tail = ring.tail := by
  have hfit : 1 ≤ queue.free := Nat.pos_of_ne_zero hroom
  obtain ⟨reserved, hreserve, hreserved, hstay⟩ := h.reserve limit 1 shown (.inr hfit)
  obtain ⟨next, hrun, hnext, htail⟩ := insert_of_reserve item hreserve hreserved
  simp only [Queue.insertGrowing, Queue.grow, hfit, if_true, Queue.shownAfter] at hrun hnext
  exact ⟨next, hrun, hnext, hstay hfit ▸ htail⟩

/-- The item of the other thread goes in after the drain, which has made room. -/
theorem insertWaiting {asked : RingBuffer α} {before : Queue α} (h : ring.Holds 0 queue)
    (hasked : asked.Holds gone before) (limit shown : Nat) (item : α) (hfull : before.free = 0)
    (hroom : queue.free ≠ 0) :
    ∃ next, Growable.insert limit item ⟨⟨asked, shown⟩, ⟨ring, shown⟩⟩ =
        .ok ⟨.ok none, [], ⟨next, shown⟩⟩ ∧ next.Holds 0 (queue.append [item]) := by
  have hfit : 1 ≤ queue.free := Nat.pos_of_ne_zero hroom
  obtain ⟨reserved, hreserve, hreserved⟩ :=
    RingBuffer.Holds.reserve_waiting hasked h limit 1 shown shown (by omega)
  obtain ⟨next, hrun, hnext, -⟩ := insert_of_reserve item hreserve hreserved
  simp only [Queue.insertGrowing, Queue.grow, hfit, if_true, Queue.shownAfter] at hrun hnext
  exact ⟨next, hrun, hnext⟩

/-- What the other thread has come to when the drain holds its first item: it waits, because there
was no room in the queue, or its item stands at the back. -/
def Met (shown : Nat) (item : α) (rival : Growable.Rival α) (queue met : Queue α) : Prop :=
  (∃ asked, rival = .waiting ⟨asked, shown⟩ ∧ asked.Holds 1 queue ∧ queue.free = 0 ∧ met = queue) ∨
    (rival = .finished (.ok none) [] ∧ met = queue.append [item])

theorem meet (h : ring.Holds 1 queue) (limit shown : Nat) (item given : α) :
    ∃ rival met next, Growable.contestHandler limit item shown given ⟨#[], .idle⟩ ring =
        .ok (.proceed, ⟨#[given], rival⟩, next) ∧ rival ≠ .idle ∧
      Met shown item rival queue met ∧ next.Holds 1 met ∧ next.tail = ring.tail := by
  simp only [Growable.contestHandler, h.free_eq, ok_bind]
  by_cases hfull : queue.free = 0
  · simp only [hfull, if_true]
    exact ⟨.waiting ⟨ring, shown⟩, queue, ring, rfl, nofun, .inl ⟨ring, rfl, h, hfull, rfl⟩, h, rfl⟩
  · obtain ⟨next, hinsert, hnext, htail⟩ := h.insertRoomy limit shown item hfull
    simp only [hfull, if_false, hinsert, ok_bind]
    exact ⟨.finished (.ok none) [], _, next, rfl, nofun, .inr ⟨rfl, rfl⟩, hnext, htail⟩

theorem drainContested (h : ring.Holds 0 queue) (limit shown max : Nat) (item : α) {n : Nat}
    (hn : min max queue.items.length = n + 1) :
    ∃ rival met next, ring.drain max (Growable.contestHandler limit item shown) ⟨#[], .idle⟩ =
        .ok (.returned (n + 1), ⟨(queue.items.take (n + 1)).toArray, rival⟩, next) ∧
      Met shown item rival queue met ∧ next.Holds 0 (met.remove (n + 1)) := by
  have hle : n + 1 ≤ queue.items.length := by omega
  obtain ⟨rest, htake, hrest⟩ := h.take (show 0 < queue.items.length by omega)
  obtain ⟨rival, met, mid, hfirst, hsettled, hmet, hmid, htail⟩ :=
    hrest.meet limit shown item queue.items[0]
  have hfront : queue.items <+: met.items := by
    rcases hmet with ⟨_, -, -, -, rfl⟩ | ⟨-, rfl⟩
    · exact List.prefix_refl _
    · rw [Queue.items_append]
      exact List.prefix_append _ _
  obtain ⟨extra, hextra⟩ := hfront
  have hlonger : queue.items.length ≤ met.items.length := by
    rw [← hextra, List.length_append]
    omega
  obtain ⟨last, hrun, hlast, hstay⟩ := hmid.drainSettled limit shown item
    ⟨ring.tail, queue.items.length⟩ n ⟨#[queue.items[0]], rival⟩ hsettled htail.symm
    (show 1 + n ≤ queue.items.length by omega) (by omega)
  rw [Nat.add_comm 1 n] at hrun hlast
  obtain ⟨released, hback, hreleased, -⟩ := hlast.handBack
  rw [hstay, htail] at hback
  have hback : last.publishTail ring.tail (n + 1) = .ok released := hback
  refine ⟨rival, met, released.record (.removed (n + 1)), ?_, hmet, ?_⟩
  · have hitems : #[queue.items[0]] ++ (met.items.drop 1).take n =
        (queue.items.take (n + 1)).toArray := by
      rw [← hextra, List.drop_append_of_le_length (by omega),
        List.take_append_of_le_length (by rw [List.length_drop]; omega)]
      have hcons : queue.items.take (n + 1) =
          queue.items[0] :: (queue.items.drop 1).take n := by
        rw [← List.take_succ_cons, ← List.drop_eq_getElem_cons, List.drop_zero]
      rw [hcons]
      simp
    rw [← hitems]
    unfold RingBuffer.drain
    simp only [consumerWindow_eq, ok_bind, h.live_eq, hn, Nat.succ_ne_zero, if_false, RingBuffer.drainRun,
      ensure_of (show 0 < queue.items.length by omega), htake, hfirst, hrun, hback, ok_bind]
  · rw [Queue.remove, Nat.min_eq_left (by omega)]
    exact hreleased.record _

theorem contend (h : ring.Holds 0 queue) (limit shown max : Nat) (item : α) :
    ∃ contested next, Growable.drainContested limit max item ⟨ring, shown⟩ = .ok contested ∧
      contested.growable = ⟨next, shown⟩ ∧ contested.events = [] ∧
      StepReply.contended contested.drained contested.items contested.inserted =
        (queue.contend item max).1 ∧
      next.Holds 0 (queue.contend item max).2 := by
  unfold Growable.drainContested Queue.contend
  cases hn : min max queue.items.length with
  | zero =>
      simp only [RingBuffer.drain, consumerWindow_eq, ok_bind, h.live_eq, hn, if_true, ok_bind]
      exact ⟨_, ring, rfl, rfl, rfl, rfl, h⟩
  | succ n =>
      obtain ⟨rival, met, next, hdrain, hmet, hnext⟩ := h.drainContested limit shown max item hn
      simp only [hdrain, ok_bind, Nat.succ_ne_zero, if_false]
      rcases hmet with ⟨asked, rfl, hasked, hfull, rfl⟩ | ⟨rfl, rfl⟩
      · -- the thread that waits asked a full ring, and the drain has made room in it
        have hroom : (met.remove (n + 1)).free ≠ 0 := by
          have hlength := h.length_le
          simp only [Queue.free, Queue.items_remove, Queue.capacity_remove, List.length_drop]
          omega
        obtain ⟨last, hinsert, hlast⟩ := hnext.insertWaiting hasked limit shown item hfull hroom
        simp only [hinsert, ok_bind]
        exact ⟨_, last, rfl, rfl, rfl, rfl, hlast⟩
      · rw [Queue.remove_append _ (by omega)] at hnext
        exact ⟨_, next, rfl, rfl, rfl, rfl, hnext⟩

end RingBuffer.Holds

end RingChannel
