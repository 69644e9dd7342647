import RingChannel.Proofs.Meantime

/-!
# Windows that have grown stale

A side samples its window once and may use it much later. Meanwhile the other side can only have
enlarged it: consumer calls leave the head and make room, producer calls leave the tail and append.
So a stale producer window still lies outside the unread items, and a stale consumer window still
covers the items that it covered when it was sampled.
-/

namespace RingChannel

variable {α : Type}

namespace RingBuffer.Holds

variable {ring : RingBuffer α} {queue : Queue α}

/-- The cursors behind the head up to the free room have slots of their own. -/
theorem slot_ne (h : ring.Holds 0 queue) {i j : Nat} (hi : i < queue.free)
    (hj : j < queue.items.length) :
    ring.slot (ring.head + UInt64.ofNat i) ≠ ring.slot (ring.tail + UInt64.ofNat j) := by
  intro hsame
  have hmask := h.mask_eq
  unfold Queue.free at hi
  rw [h.head_eq, UInt64.add_assoc, ← UInt64.ofNat_add] at hsame
  have hcursor := (Store.slot_inj h.row.valid (by omega) (by omega)).1 hsame
  omega

variable [Item α]

theorem write_stale (h : ring.Holds 0 queue) (face : Face) (calls : List (ConsumerCall α))
    (items : List α) (hfit : items.length ≤ queue.free) :
    ∃ answers later filled written,
      Interlude.performAll (Channel.consumeInside face) calls ring = .ok (answers, later) ∧
        (∀ i < items.length, ∀ j < later.live,
          later.slot (ring.head + UInt64.ofNat i) ≠ later.slot (later.tail + UInt64.ofNat j)) ∧
        later.fill ring.head items = .ok filled ∧
        filled.publishHead ring.head items.length = .ok written ∧
        written.contents = later.contents ++ items := by
  rcases h.consumeCalls face calls with ⟨answers, later, next, hrun, hlater, hhead, hconsumed⟩
  have hfit : items.length ≤ next.free := Nat.le_trans hfit hconsumed.free_le
  rcases hlater.write items hfit with ⟨filled, written, hfill, hpublish, hwritten, -⟩
  rw [hhead] at hfill hpublish
  refine ⟨answers, later, filled, written, hrun, ?_, hfill, hpublish, ?_⟩
  · intro i hi j hj
    rw [hlater.live_eq] at hj
    have hne := hlater.slot_ne (Nat.lt_of_lt_of_le hi hfit) hj
    rw [hhead] at hne
    exact hne
  · rw [hwritten.contents_eq, hlater.contents_eq, Queue.items_append]

theorem read_stale (h : ring.Holds 0 queue) (limit : Nat) (face : Face)
    (calls : List (ProducerCall α)) {count : Nat} (hcount : count ≤ queue.items.length) :
    ∃ answers later taken released,
      Interlude.performAll (Channel.produceInside limit face) calls ring = .ok (answers, later) ∧
        later.takeRun ring.tail count = .ok (ring.contents.take count, taken) ∧
        taken.publishTail ring.tail count = .ok released ∧
        released.contents = later.contents.drop count := by
  rcases h.produceCalls limit face calls with
    ⟨answers, later, next, hrun, hlater, htail, hproduced⟩
  rcases hproduced.prefix_items with ⟨extra, hextra⟩
  have hlonger : count ≤ next.items.length := by
    rw [← hextra, List.length_append]
    omega
  rcases hlater.takeFront hlonger with ⟨taken, released, htake, hback, hreleased, -⟩
  rw [htail] at htake hback
  have hfront : next.items.take count = queue.items.take count := by
    rw [← hextra, List.take_append_of_le_length hcount]
  rw [hfront, ← h.contents_eq] at htake
  refine ⟨answers, later, taken, released, hrun, htake, hback, ?_⟩
  rw [hreleased.contents_eq, hlater.contents_eq, Queue.items_behead]

end RingBuffer.Holds

variable [Item α]

namespace Session

/-- Items that fit a window which the producer sampled before any calls of the consumer go into
slots that hold nothing unread, and are unread behind the rest once they are published. A window
that the consumer sampled before any calls of the producer still holds the items it held then, and
they are what the ring is without once their slots are handed back. -/
theorem stale_windows {session : Session α} (h : session.Reachable) (limit : Nat) (face : Face) :
    (∀ window, session.channel.ring.producerWindow = .ok window →
      ∀ items : List α, items.length ≤ window.count → ∀ calls : List (ConsumerCall α),
        ∃ answers later filled written,
          Interlude.performAll (Channel.consumeInside face) calls session.channel.ring =
              .ok (answers, later) ∧
            (∀ i < items.length, ∀ j < later.live,
              later.slot (window.start + UInt64.ofNat i) ≠
                later.slot (later.tail + UInt64.ofNat j)) ∧
            later.fill window.start items = .ok filled ∧
            filled.publishHead window.start items.length = .ok written ∧
            written.contents = later.contents ++ items) ∧
    ∃ window, session.channel.ring.consumerWindow = .ok window ∧
      ∀ count ≤ window.count, ∀ calls : List (ProducerCall α),
        ∃ answers later taken released,
          Interlude.performAll (Channel.produceInside limit face) calls session.channel.ring =
              .ok (answers, later) ∧
            later.takeRun window.start count =
              .ok (session.channel.ring.contents.take count, taken) ∧
            taken.publishTail window.start count = .ok released ∧
            released.contents = later.contents.drop count := by
  rcases h.holds with ⟨model, hmodel⟩
  have hring := hmodel.ring
  constructor
  · intro window hwindow items hfit calls
    simp only [RingBuffer.producerWindow, hring.free_eq, ok_bind] at hwindow
    cases hwindow
    exact hring.write_stale face calls items hfit
  · refine ⟨_, session.channel.ring.consumerWindow_eq, fun count hcount calls => ?_⟩
    have hcount : count ≤ model.queue.items.length := by
      rw [← hring.live_eq]
      exact hcount
    exact hring.read_stale limit face calls hcount

/-- A bare ring whose cursors wrap in its first batch, with a bomb among the items. A drain that
panics and a discard that goes off leave the producer's window as good as it was, and inserts, one
of them refused, the consumer's. -/
theorem stale_windows_wrapping :
    let ring : RingBuffer Tracked :=
      ⟨18446744073709551615, 18446744073709551615, 3, .empty 4, .counting, .zero⟩
    let batch : Step Tracked :=
      .produce (.writeBatch (.ofArray #[⟨1, false⟩, ⟨2, true⟩, ⟨3, false⟩])) []
    ∃ answers session window readable,
      (around .bare 64 ring).run [batch] = .ok (answers, session) ∧
        session.Reachable ∧
        session.channel.ring.producerWindow = .ok window ∧ window.count = 1 ∧
        session.channel.ring.consumerWindow = .ok readable ∧ readable.count = 3 ∧
        (∃ answers later filled written,
          Interlude.performAll (Channel.consumeInside .bare) [.drain 1 (some 0), .discard 2]
              session.channel.ring = .ok (answers, later) ∧
            later.fill window.start [⟨4, false⟩] = .ok filled ∧
            filled.publishHead window.start 1 = .ok written ∧
            written.contents = later.contents ++ [⟨4, false⟩]) ∧
        (∃ answers later taken released,
          Interlude.performAll (Channel.produceInside 64 .bare)
              [.insert ⟨4, false⟩, .insert ⟨5, false⟩] session.channel.ring = .ok (answers, later) ∧
            later.takeRun readable.start 2 =
              .ok (session.channel.ring.contents.take 2, taken) ∧
            taken.publishTail readable.start 2 = .ok released ∧
            released.contents = later.contents.drop 2) := by
  intro ring batch
  have hring : RingBuffer.create 64 4 .counting 18446744073709551615 = .ok ring := rfl
  have hsteps : (around .bare 64 ring).AdmitsAll [batch] :=
    admitsAll_of_forall (by simp [batch, Admits]) _
  rcases (holds_around hring .bare 64).run hsteps with ⟨session, hrun, hsession⟩
  have hreachable : session.Reachable := (Reachable.around hring .bare 64).run hsteps hrun
  have hfree : session.channel.ring.free = .ok 1 := hsession.ring.free_eq
  have hlive : session.channel.ring.live = 3 := hsession.ring.live_eq
  have hwindow : session.channel.ring.producerWindow = .ok ⟨session.channel.ring.head, 1⟩ := by
    simp only [RingBuffer.producerWindow, hfree, ok_bind]
  have hstale := stale_windows hreachable 64 .bare
  rcases hstale.1 _ hwindow [⟨4, false⟩] (Nat.le_refl 1) [.drain 1 (some 0), .discard 2] with
    ⟨answers, later, filled, written, hcalls, -, hfill, hpublish, hcontents⟩
  rcases hstale.2 with ⟨readable, hreadable, hread⟩
  have hthree : readable.count = 3 := by
    rw [RingBuffer.consumerWindow_eq] at hreadable
    cases hreadable
    exact hlive
  have hread := hread 2 (by omega) [.insert ⟨4, false⟩, .insert ⟨5, false⟩]
  exact ⟨_, session, _, readable, hrun, hreachable, hwindow, rfl, hreadable, hthree,
    ⟨answers, later, filled, written, hcalls, hfill, hpublish, hcontents⟩, hread⟩

end Session

end RingChannel
