import RingChannel.Proofs.Counting.Sightings
import RingChannel.Proofs.Reachable

/-!
# Each offered item is counted once

A call that writes to a ring that refuses counts each of its items once, as inserted if it took the
item and as rejected if it refused it, whatever the consumer does inside the call. What was
accepted and what was refused is read off the call and its reply. A ring that grows makes room for
all of the items or writes none, and never counts one as rejected.
-/

namespace RingChannel

variable {α β : Type}

namespace ProducerCall

/-- The items that a call took, by its reply. If its callback panicked they are those of the chunks
that it was told of. -/
def accepts (call : ProducerCall α) : Reply α → Nat
  | .inserted none | .made (.returned true) _ => 1
  | .wrote count | .wroteChunks (.returned count) _ => count
  | .wroteChunks (.panicked _) chunks => totalLength chunks
  | .wroteAll true => call.needed
  | _ => 0

/-- The refusals of a call, by its reply. Calls that go on trying are refused at each attempt. -/
def refuses (call : ProducerCall α) (reply : Reply α) : Nat :=
  match call, reply with
  | .insertWithBackoff _, .inserted (some _) => 12
  | .insertUntil _ readings, .inserted (some _) => readings + 1
  | _, .inserted (some _) | _, .made (.returned false) _ => 1
  | call, .wrote count | call, .wroteChunks (.returned count) _ => call.needed - count
  | _, _ => 0

/-- A call that takes what fits and refuses the rest, once, came back. -/
def divides (call : ProducerCall α) (reply : Reply α) : Bool :=
  match call, reply with
  | .insert _, _ | .writeBatch _, _ => true
  | .insertWith _ _, .made (.returned _) _ | .writeChunked _ _ _, .wroteChunks (.returned _) _ =>
      true
  | _, _ => false

/-- A call counts what it took and what it refused, and nothing at all if all or nothing was
asked for. -/
structure Counted (call : ProducerCall α) (reply : Reply α) (before after : Counters) : Prop where
  inserted_eq : after.inserted = before.inserted + UInt64.ofNat (call.accepts reply)
  rejected_eq : after.rejected = before.rejected + UInt64.ofNat (call.refuses reply)
  offered_eq : call.divides reply = true → call.accepts reply + call.refuses reply = call.needed
  unchanged : reply = .wroteAll false → after = before

end ProducerCall

/-- Nothing more has been inserted or rejected. -/
structure Counters.Level (before after : Counters) : Prop where
  inserted_eq : after.inserted = before.inserted
  rejected_eq : after.rejected = before.rejected

theorem Counters.Level.refl (counters : Counters) : counters.Level counters :=
  ⟨rfl, rfl⟩

theorem Counters.Level.trans {a b c : Counters} (hab : a.Level b) (hbc : b.Level c) : a.Level c :=
  ⟨hbc.inserted_eq.trans hab.inserted_eq, hbc.rejected_eq.trans hab.rejected_eq⟩

/-- Calls that are each counted from the state that they find to the state that they show. Between
them, and before and after, nothing is inserted or rejected. -/
inductive CountedInTurn (before : Counters) :
    List (ProducerCall α × Answer α) → Counters → Prop where
  | none {after : Counters} (h : before.Level after) : CountedInTurn before [] after
  | more {calls : List (ProducerCall α × Answer α)} {found after : Counters}
      {call : ProducerCall α} {answer : Answer α} (h : CountedInTurn before calls found)
      (hcall : call.Counted answer.reply found answer.status.counters)
      (hafter : answer.status.counters.Level after) :
      CountedInTurn before (calls ++ [(call, answer)]) after

theorem CountedInTurn.level {before after later : Counters}
    {calls : List (ProducerCall α × Answer α)} (h : CountedInTurn before calls after)
    (hlater : after.Level later) : CountedInTurn before calls later := by
  cases h with
  | none h => exact .none (h.trans hlater)
  | more h hcall hafter => exact .more h hcall (hafter.trans hlater)

namespace Queue

/-! ## What moves count -/

structure Tallied (start : Counters) (inserted rejected : Nat) (queue : Queue α) : Prop where
  metered_eq : queue.metered = true
  inserted_eq : queue.counters.inserted = start.inserted + UInt64.ofNat inserted
  rejected_eq : queue.counters.rejected = start.rejected + UInt64.ofNat rejected

namespace Tallied

variable {start : Counters} {inserted rejected : Nat} {queue next : Queue α}

theorem refl (hmetered : queue.metered = true) : queue.Tallied queue.counters 0 0 :=
  ⟨hmetered, (UInt64.add_zero _).symm, (UInt64.add_zero _).symm⟩

theorem append (h : queue.Tallied start inserted rejected) (items : List α) :
    (queue.append items).Tallied start (inserted + items.length) rejected := by
  refine ⟨(metered_append items queue).trans h.metered_eq, ?_, ?_⟩
  · rw [inserted_append h.metered_eq, h.inserted_eq, UInt64.add_assoc, ← UInt64.ofNat_add]
  · rw [rejected_append, h.rejected_eq]

theorem reject (h : queue.Tallied start inserted rejected) (count : Nat) :
    (queue.record (.rejected count)).Tallied start inserted (rejected + count) := by
  rcases queue with ⟨capacity, present, metered, counters⟩
  rcases h with ⟨hmetered, hinserted, hrejected⟩
  cases hmetered
  refine ⟨rfl, hinserted, ?_⟩
  rw [UInt64.ofNat_add, ← UInt64.add_assoc, ← hrejected]
  rfl

theorem level (h : queue.Tallied start inserted rejected) (hmetered : next.metered = queue.metered)
    (hlevel : queue.counters.Level next.counters) : next.Tallied start inserted rejected :=
  ⟨hmetered.trans h.metered_eq, hlevel.inserted_eq.trans h.inserted_eq,
    hlevel.rejected_eq.trans h.rejected_eq⟩

theorem trans {more refused : Nat} (h : queue.Tallied start inserted rejected)
    (hnext : next.Tallied queue.counters more refused) :
    next.Tallied start (inserted + more) (rejected + refused) := by
  refine ⟨hnext.metered_eq, ?_, ?_⟩
  · rw [hnext.inserted_eq, h.inserted_eq, UInt64.ofNat_add, UInt64.add_assoc]
  · rw [hnext.rejected_eq, h.rejected_eq, UInt64.ofNat_add, UInt64.add_assoc]

end Tallied

theorem Releases.level {queue next : Queue α} {lost : Nat} (h : queue.Releases lost next) :
    next.metered = queue.metered ∧ queue.counters.Level next.counters := by
  rcases queue with ⟨capacity, items, metered, counters⟩
  cases h with
  | removed count hle => cases metered <;> exact ⟨rfl, rfl, rfl⟩
  | discarded count hle => cases metered <;> exact ⟨rfl, rfl, rfl⟩
  | lost count hle => exact ⟨rfl, rfl, rfl⟩

variable {start : Counters} {inserted rejected : Nat}

theorem Tallied.releases {queue next : Queue α} {lost : Nat}
    (h : queue.Tallied start inserted rejected) (hreleases : queue.Releases lost next) :
    next.Tallied start inserted rejected :=
  h.level hreleases.level.1 hreleases.level.2

/-! ## Producer calls -/

def Meanwhile.Silent (meanwhile : Meanwhile α) : Prop :=
  ∀ {start inserted rejected} face invocation {queue}, Tallied start inserted rejected queue →
    Tallied start inserted rejected (meanwhile face invocation queue).2

theorem Meanwhile.silent_quiet : (quiet : Meanwhile α).Silent :=
  fun _ _ _ h => h

theorem Meanwhile.silent_consumeInside [Item α] (present : Bool)
    (script : List (List (ConsumerCall α))) :
    (ofScript present consumeInside script).Silent := by
  intro start inserted rejected face invocation queue h
  have hcall : ∀ call {answers : List (Answer α)} {queue : Queue α},
      queue.Tallied start inserted rejected →
        (queue.consumeInside face call).2.Tallied start inserted rejected := by
    intro call answers queue h
    have hquiet : (quiet : Meanwhile α).Carries
        (fun _ queue => queue.Tallied start inserted rejected) face := .quiet
    rcases hquiet.consume (fun count _ queue hmid => hmid.releases (releases_remove count queue))
      (fun _ _ queue => List.prefix_refl queue.items) call h with ⟨mid, hmid, hreleases⟩
    exact hmid.releases hreleases
  exact carries_answers (J := fun _ queue => queue.Tallied start inserted rejected) hcall present
    script invocation [] queue h

variable {meanwhile : Meanwhile α} (hsilent : meanwhile.Silent)

include hsilent

theorem round_tallied {face : Face} {panicAt : Option Nat} {items : Block α} {written count : Nat}
    {journal later : Journal α Nat} {queue next : Queue α} {signal : Signal}
    (hcount : count ≤ items.size - written) (hmetered : queue.metered = true)
    (hcall : meanwhile.callback face panicAt count journal
      (queue.append ((items.toList.drop written).take count)) = (signal, later, next)) :
    later.told.toList = journal.told.toList ++ [count] ∧
      next.Tallied queue.counters (0 + count) 0 := by
  have hlength : ((items.toList.drop written).take count).length = count := by
    rw [List.length_take, List.length_drop, items.length_toList]
    omega
  have hchunk := (Tallied.refl hmetered).append ((items.toList.drop written).take count)
  rw [hlength] at hchunk
  cases hcall
  refine ⟨?_, hsilent face journal.told.size hchunk⟩
  simp only [Meanwhile.invoke, Journal.note_eq_after]
  simp [Journal.after]

/-- A chunked write counts the chunks that its callback is told of. -/
theorem writeRounds_tallied {face : Face} {panicAt : Option Nat} {items : Block α}
    {chunk written : Nat} {journal later : Journal α Nat} {queue next : Queue α}
    {outcome : Outcome Nat} (hle : written ≤ items.size) (hmetered : queue.metered = true)
    (hrun : queue.writeRounds items chunk (meanwhile.callback face panicAt) written journal =
      (outcome, later, next)) :
    ∃ told, later.told.toList = journal.told.toList ++ told ∧
      next.Tallied queue.counters (totalLength told) 0 ∧
      written + totalLength told ≤ items.size ∧
      ∀ total, outcome = .returned total → total = written + totalLength told := by
  fun_induction Queue.writeRounds items chunk (meanwhile.callback face panicAt) written journal
    queue with
  | case1 written journal queue count hcount =>
      cases hrun
      refine ⟨[], (List.append_nil _).symm, .refl hmetered, hle, ?_⟩
      intro total htotal
      exact (Outcome.returned.inj htotal).symm
  | case2 written journal queue count hcount mid queue' hcall ih =>
      have hfit : count ≤ items.size - written :=
        Nat.le_trans (Nat.min_le_left _ _) (Nat.min_le_right _ _)
      rcases round_tallied hsilent hfit hmetered hcall with ⟨hfirst, hround⟩
      rcases ih (by omega) hround.metered_eq hrun with ⟨told, hrest, htallied, hend, htotal⟩
      refine ⟨count :: told, ?_, ?_, ?_, ?_⟩
      · rw [hrest, hfirst, List.append_assoc, List.singleton_append]
      · have hboth := hround.trans htallied
        rw [Nat.zero_add] at hboth
        exact hboth
      · rw [totalLength, ← Nat.add_assoc]
        exact hend
      · intro total hreturned
        rw [totalLength, ← Nat.add_assoc]
        exact htotal total hreturned
  | case3 written journal queue count hcount mid queue' hcall =>
      have hfit : count ≤ items.size - written :=
        Nat.le_trans (Nat.min_le_left _ _) (Nat.min_le_right _ _)
      cases hrun
      rcases round_tallied hsilent hfit hmetered hcall with ⟨hfirst, hround⟩
      refine ⟨[count], hfirst, ?_, ?_, ?_⟩
      · rw [Nat.zero_add] at hround
        exact hround
      · show written + (count + 0) ≤ items.size
        omega
      · intro total hreturned
        cases hreturned

theorem writeChunked_tallied {face : Face} {panicAt : Option Nat} {items : Block α} {chunk : Nat}
    {queue : Queue α} (hmetered : queue.metered = true) :
    let answer := queue.writeChunked items chunk (meanwhile.callback face panicAt) .empty
    let call := ProducerCall.writeChunked items chunk panicAt
    let reply : Reply α := .wroteChunks answer.1 answer.2.1.told.toList
    answer.2.2.Tallied queue.counters (call.accepts reply) (call.refuses reply) ∧
      (call.divides reply = true → call.accepts reply + call.refuses reply = call.needed) := by
  unfold writeChunked
  cases hrounds : queue.writeRounds items (RingBuffer.chunkLength chunk items.size)
      (meanwhile.callback face panicAt) 0 .empty with
  | mk outcome rest =>
      rcases rest with ⟨journal, mid⟩
      rcases writeRounds_tallied hsilent (Nat.zero_le _) hmetered hrounds with
        ⟨told, htold, htallied, hend, htotal⟩
      have htold : journal.told.toList = told := htold
      cases outcome with
      | panicked cause =>
          simp only [ProducerCall.accepts, ProducerCall.refuses, htold]
          refine ⟨htallied, ?_⟩
          intro hdivides
          cases hdivides
      | returned total =>
          have htotal := htotal total rfl
          rw [Nat.zero_add] at hend htotal
          have hrejected := htallied.reject (items.size - total)
          rw [← htotal, Nat.zero_add] at hrejected
          refine ⟨hrejected, ?_⟩
          intro _
          show total + (items.size - total) = items.size
          omega

theorem pushWith_tallied {face : Face} {panicAt : Option Nat} {item : α} {queue : Queue α}
    (hmetered : queue.metered = true) :
    let answer := queue.pushWith (meanwhile.factory face panicAt item) .empty
    let call := ProducerCall.insertWith item panicAt
    let reply : Reply α := .made answer.1 answer.2.1.told.size
    answer.2.2.Tallied queue.counters (call.accepts reply) (call.refuses reply) ∧
      (call.divides reply = true → call.accepts reply + call.refuses reply = call.needed) := by
  have hmade := hsilent face 0 (Tallied.refl hmetered)
  unfold pushWith Meanwhile.factory
  by_cases hfree : queue.free = 0
  · simp only [hfree, if_true]
    exact ⟨(Tallied.refl hmetered).reject 1, fun _ => rfl⟩
  · simp only [hfree, if_false]
    by_cases hpanic : panicAt = some (Journal.empty : Journal α Unit).told.size
    · simp only [hpanic, if_true]
      refine ⟨hmade, ?_⟩
      intro hdivides
      cases hdivides
    · simp only [hpanic, if_false]
      exact ⟨hmade.append [item], fun _ => rfl⟩

omit hsilent in
theorem Tallied.counted {queue next : Queue α} {call : ProducerCall α} {reply : Reply α}
    (h : next.Tallied queue.counters (call.accepts reply) (call.refuses reply))
    (hmetered : queue.metered = true)
    (hoffered : call.divides reply = true →
      call.accepts reply + call.refuses reply = call.needed)
    (hunchanged : reply = .wroteAll false → next.metrics = queue.metrics) :
    call.Counted reply queue.metrics next.metrics := by
  have hbefore : queue.metrics = queue.counters := if_pos hmetered
  have hafter : next.metrics = next.counters := if_pos h.metered_eq
  refine ⟨?_, ?_, hoffered, hunchanged⟩
  · rw [hbefore, hafter]
    exact h.inserted_eq
  · rw [hbefore, hafter]
    exact h.rejected_eq

omit hsilent in
theorem pushRepeatedly_counted {queue : Queue α} (hmetered : queue.metered = true)
    {call : ProducerCall α} {attempts : Nat} {item : α}
    (hrefuses : call.refuses (.inserted (some item)) = attempts)
    (honce : ∀ reply, call.divides reply = true → attempts = 1 ∧ call.needed = 1) :
    call.Counted (.inserted (queue.pushRepeatedly attempts item).1) queue.metrics
      (queue.pushRepeatedly attempts item).2.metrics := by
  unfold pushRepeatedly
  split
  · have hrejected := (Tallied.refl hmetered).reject attempts
    rw [Nat.zero_add, ← hrefuses] at hrejected
    rw [← hrefuses]
    refine hrejected.counted hmetered ?_ (by rintro ⟨⟩)
    intro hdivides
    rcases honce _ hdivides with ⟨hattempts, hneeded⟩
    rw [hrefuses, hattempts, hneeded]
    rfl
  · have hnone : call.refuses (.inserted none) = 0 := by
      cases call <;> rfl
    have hinserted :
        (queue.append [item]).Tallied queue.counters 1 (call.refuses (.inserted none)) :=
      hnone.symm ▸ (Tallied.refl hmetered).append [item]
    refine hinserted.counted hmetered ?_ (by rintro ⟨⟩)
    intro hdivides
    rcases honce _ hdivides with ⟨-, hneeded⟩
    rw [hnone, hneeded]
    rfl

/-- Each call on a ring that refuses is counted. -/
theorem writeBounded_counted {queue : Queue α} (hmetered : queue.metered = true) (face : Face)
    (call : ProducerCall α) :
    call.Counted (queue.writeBounded face meanwhile call).1.reply queue.metrics
      (queue.writeBounded face meanwhile call).2.metrics := by
  cases call with
  | insert item =>
      have hrefuses : (ProducerCall.insert item).refuses (.inserted (some item)) = 1 := rfl
      exact pushRepeatedly_counted hmetered hrefuses (fun _ _ => ⟨rfl, rfl⟩)
  | insertWith item panicAt =>
      rcases pushWith_tallied hsilent hmetered with ⟨htallied, hoffered⟩
      exact htallied.counted hmetered hoffered (by rintro ⟨⟩)
  | insertWithBackoff item => exact pushRepeatedly_counted hmetered rfl (by rintro _ ⟨⟩)
  | insertUntil item readings => exact pushRepeatedly_counted hmetered rfl (by rintro _ ⟨⟩)
  | writeBatch items =>
      have hcount : (items.toList.take (min items.size queue.free)).length =
          min items.size queue.free := by
        rw [List.length_take, items.length_toList]
        omega
      have hrefused := (Tallied.refl hmetered).reject (items.size - min items.size queue.free)
      have hwritten := hrefused.append (items.toList.take (min items.size queue.free))
      rw [hcount, Nat.zero_add, Nat.zero_add] at hwritten
      refine hwritten.counted hmetered ?_ (by rintro ⟨⟩)
      intro _
      show min items.size queue.free + (items.size - min items.size queue.free) = items.size
      omega
  | writeChunked items chunk panicAt =>
      rcases writeChunked_tallied hsilent hmetered with ⟨htallied, hoffered⟩
      exact htallied.counted hmetered hoffered (by rintro ⟨⟩)
  | writeAll items =>
      simp only [writeBounded, writeAll]
      split
      · exact (Tallied.refl hmetered).counted hmetered (by rintro ⟨⟩) (fun _ => rfl)
      · have hwritten := (Tallied.refl hmetered).append items.toList
        rw [items.length_toList, Nat.zero_add] at hwritten
        exact hwritten.counted hmetered (by rintro ⟨⟩) (by rintro ⟨⟩)
  | observe =>
      exact (Tallied.refl hmetered).counted hmetered (by rintro ⟨⟩) (by rintro ⟨⟩)

omit hsilent in
theorem Releases.metrics_level {queue next : Queue α} {lost : Nat} (h : queue.Releases lost next) :
    queue.metrics.Level next.metrics := by
  rcases h.level with ⟨hmetered, hlevel⟩
  unfold metrics
  rw [hmetered]
  split
  · exact hlevel
  · exact .refl _

/-! ## Producer calls made inside consumer calls -/

section inside

omit hsilent

variable [Item α] {face : Face} (hface : face = .bare ∨ face = .fixed)

include hface

theorem produceInside_counted {queue : Queue α} (hmetered : queue.metered = true) (limit : Nat)
    (call : ProducerCall α) :
    call.Counted (queue.produceInside limit face call).1.reply queue.metrics
        (queue.produceInside limit face call).1.status.counters ∧
      (queue.produceInside limit face call).1.status.counters =
        (queue.produceInside limit face call).2.metrics := by
  rcases hface with rfl | rfl
  · exact ⟨writeBounded_counted Meanwhile.silent_quiet hmetered .bare call, rfl⟩
  · exact ⟨writeBounded_counted Meanwhile.silent_quiet hmetered .fixed call, rfl⟩

/-- The producer calls made inside a consumer call are counted one after another, and the consumer
call itself inserts and rejects nothing. -/
theorem consume_countedInTurn {queue : Queue α} (hmetered : queue.metered = true) (limit : Nat)
    (present : Bool) (script : List (List (ProducerCall α))) (call : ConsumerCall α) :
    CountedInTurn queue.metrics
      ((queue.consume face (.ofScript present (produceInside limit) script) call).1.nested.flatMap
        (entryCalls script))
      (queue.consume face (.ofScript present (produceInside limit) script) call).2.metrics := by
  let J : List (ProducerCall α × Answer α) → Queue α → Prop := fun calls mid =>
    mid.metered = true ∧ CountedInTurn queue.metrics calls mid.metrics
  have hcall : ∀ call {calls mid}, J calls mid →
      J (calls ++ [(call, (mid.produceInside limit face call).1)])
        (mid.produceInside limit face call).2 := by
    rintro call calls mid ⟨hmid, hcalls⟩
    rcases produceInside_counted hface hmid limit call with ⟨hcounted, hstatus⟩
    have hsteady := chains_steady.produceInside steady_write limit face call mid
    exact ⟨hsteady.metered_eq.trans hmid, .more hcalls hcounted (hstatus ▸ .refl _)⟩
  have hremove : ∀ count {calls : List (ProducerCall α × Answer α)} {mid : Queue α}, J calls mid →
      J calls (mid.remove count) := by
    rintro count calls mid ⟨hmid, hcalls⟩
    have hreleases := releases_remove count mid
    exact ⟨hreleases.level.1.trans hmid, hcalls.level hreleases.metrics_level⟩
  rcases (carries_ofScript hcall present script).consume
      (fun count _ _ hmid => ⟨hremove count hmid.1, hmid.2⟩)
      (items_prefix_produceInside limit present script) call
      ⟨⟨hmetered, .none (.refl _)⟩, List.forall_mem_nil _⟩ with
    ⟨mid, ⟨⟨-, hcalls⟩, -⟩, hreleases⟩
  exact hcalls.level hreleases.metrics_level

end inside

/-! ## Queues that grow -/

omit hsilent in
theorem metrics_unrefused {queue : Queue α} (h : queue.counters.rejected = 0) :
    queue.metrics.rejected = 0 := by
  unfold metrics
  split
  · exact h
  · rfl

omit hsilent in
theorem watched_unrefused :
    Watched true (fun _ (queue : Queue α) => queue.counters.rejected = 0)
      fun _ status => status.counters.rejected = 0 where
  shows := by
    rintro _ queue status h ⟨face, role, rfl⟩
    exact metrics_unrefused h
  append := by
    rintro _ ⟨capacity, present, metered, counters⟩ items - h
    cases metered <;> exact h
  reject := nofun
  releases := by
    intro _ _ queue next hreleases h
    exact hreleases.level.2.rejected_eq.trans h
  grow := by
    rintro _ ⟨present, items, metered, counters⟩ capacity - - h
    cases metered <;> exact h

end Queue

namespace Session

variable [Item α]

theorem Reachable.unrefused {session : Session α} (h : session.Reachable) :
    ∃ model, session.Holds model ∧
      (model.face.growing = true → model.queue.counters.rejected = 0) := by
  induction h with
  | around hring kind bytes => exact ⟨_, holds_around hring kind bytes, fun _ => rfl⟩
  | step h hadmits hstep ih =>
      rcases ih with ⟨model, hmodel, hrejected⟩
      rcases hmodel.step hadmits with ⟨next, hrun, hnext⟩
      rw [hrun] at hstep
      cases hstep
      refine ⟨_, hnext, ?_⟩
      intro hgrowing
      rw [model.growing_step] at hgrowing
      have hwatch := hmodel.step_watch Queue.watched_unrefused 0 hgrowing hadmits
        (hrejected hgrowing)
      exact hwatch.holds

/-- On a reachable ring that refuses, and that counts, a producer call counts what it took and what
it refused, alone or inside a consumer call. On a reachable ring that grows nothing was ever
counted as rejected, and no step shows anything else. -/
theorem offers_counted {session : Session α} (h : session.Reachable) :
    (session.channel.face.growing = false → session.channel.ring.config.metered = true →
      (session.producing = true → ∀ call script, ∃ answer next reply nested,
        session.step (.produce call script) = .ok (answer, next) ∧
          answer.reply = .called reply nested ∧
          call.Counted reply session.channel.ring.metrics next.channel.ring.metrics) ∧
      (session.consuming = true → ∀ call script, ∃ answer next reply nested,
        session.step (.consume call script) = .ok (answer, next) ∧
          answer.reply = .called reply nested ∧
          CountedInTurn session.channel.ring.metrics (nested.flatMap (entryCalls script))
            next.channel.ring.metrics)) ∧
    (session.channel.face.growing = true →
      session.channel.ring.metrics.rejected = 0 ∧
      ∀ step, ∃ answer next, session.step step = .ok (answer, next) ∧
        ∀ sighting ∈ answer.sightings, ∀ status ∈ sighting.seen,
          status.counters.rejected = 0) := by
  rcases h.unrefused with ⟨model, hmodel, hrejected⟩
  rw [hmodel.face_eq, hmodel.ring.metered_eq, hmodel.ring.metrics_eq, hmodel.producing_eq,
    hmodel.consuming_eq]
  refine ⟨?_, ?_⟩
  · intro hgrowing hmetered
    have hface : model.face = .bare ∨ model.face = .fixed := by
      cases hface : model.face with
      | bare => exact .inl rfl
      | fixed => exact .inr rfl
      | growable shown =>
          rw [hface] at hgrowing
          cases hgrowing
    refine ⟨?_, ?_⟩
    · intro hproducing call script
      have hadmits : session.Admits (.produce call script) := trivial
      rcases hmodel.step hadmits with ⟨next, hrun, hnext⟩
      rcases model with ⟨face, queue, limit, producing, consuming⟩
      cases hproducing
      refine ⟨_, next, _, _, hrun, rfl, ?_⟩
      rw [hnext.ring.metrics_eq]
      have hcounted := queue.writeBounded_counted
        (Queue.Meanwhile.silent_consumeInside consuming script) hmetered face call
      rcases hface with hface | hface
      · cases hface
        exact hcounted
      · cases hface
        exact hcounted
    · intro hconsuming call script
      have hadmits : session.Admits (.consume call script) := trivial
      rcases hmodel.step hadmits with ⟨next, hrun, hnext⟩
      rcases model with ⟨face, queue, limit, producing, consuming⟩
      cases hconsuming
      refine ⟨_, next, _, _, hrun, rfl, ?_⟩
      rw [hnext.ring.metrics_eq]
      exact Queue.consume_countedInTurn hface hmetered limit producing script call
  · intro hgrowing
    refine ⟨Queue.metrics_unrefused (hrejected hgrowing), ?_⟩
    intro step
    have hadmits : session.Admits step := by
      cases step with
      | regrow capacity =>
          intro hbare
          rw [← hmodel.face_eq, hbare] at hgrowing
          cases hgrowing
      | produce | consume | setLimit | dropProducer | dropConsumer | contend => trivial
    rcases hmodel.step hadmits with ⟨next, hrun, -⟩
    have hwatch := hmodel.step_watch Queue.watched_unrefused 0 hgrowing hadmits
      (hrejected hgrowing)
    refine ⟨_, next, hrun, ?_⟩
    intro sighting hsighting
    rcases hwatch.seen.exists_lost sighting hsighting with ⟨_, -, hseen⟩
    exact hseen

/-- A fixed ring whose cursors wrap takes two of three items, one of them thanks to a removal inside
the call, and a ring that grows could not make room. -/
theorem offers_counted_partly :
    let ring : RingBuffer UInt64 :=
      ⟨18446744073709551615, 18446744073709551615, 3, .empty 4, .counting, .zero⟩
    let call : ProducerCall UInt64 := .writeChunked (.ofArray #[4, 5, 6]) 2 none
    let growing : List (Step UInt64) :=
      [.produce (.writeBatch (.replicate 3 1)) [], .produce (.writeBatch (.replicate 9 2)) []]
    (∃ answers session, (around .fixed 64 ring).run
          [.produce (.writeBatch (.ofArray #[1, 2, 3])) []] = .ok (answers, session) ∧
        session.Reachable ∧ session.channel.face.growing = false ∧
        session.channel.ring.config.metered = true ∧ session.producing = true ∧
        session.channel.ring.metrics = ⟨3, 0, 0, 0, 0⟩ ∧
        ∃ answer next, session.step (.produce call [[.remove]]) = .ok (answer, next) ∧
          next.channel.ring.metrics.inserted = 3 + 2 ∧ next.channel.ring.metrics.rejected = 0 + 1) ∧
      ∃ answers session, (around .growable 64 ring).run growing = .ok (answers, session) ∧
        session.Reachable ∧ session.channel.face.growing = true ∧
        session.channel.ring.metrics.rejected = 0 := by
  intro ring call growing
  have hring : RingBuffer.create 64 4 .counting 18446744073709551615 = .ok ring := rfl
  refine ⟨?_, ?_⟩
  · have hsteps : (around .fixed 64 ring).AdmitsAll
        [.produce (.writeBatch (.ofArray #[1, 2, 3])) []] :=
      admitsAll_of_forall (by simp [Admits]) _
    rcases (holds_around hring .fixed 64).run hsteps with ⟨session, hrun, hsession⟩
    have hreachable : session.Reachable := (Reachable.around hring .fixed 64).run hsteps hrun
    have hface : session.channel.face.growing = false := congrArg Face.growing hsession.face_eq
    have hmetered : session.channel.ring.config.metered = true := hsession.ring.metered_eq
    have hproducing : session.producing = true := hsession.producing_eq
    have hmetrics : session.channel.ring.metrics = ⟨3, 0, 0, 0, 0⟩ := hsession.ring.metrics_eq
    have hcounted := ((offers_counted hreachable).1 hface hmetered).1 hproducing call [[.remove]]
    rcases hcounted with ⟨answer, next, reply, nested, hstep, hreply, hcounted⟩
    have hadmits : session.Admits (.produce call [[.remove]]) := trivial
    rcases hsession.step hadmits with ⟨_, hmodel, -⟩
    have hanswer := (Prod.mk.inj (Except.ok.inj (hmodel.symm.trans hstep))).1
    let model : QueueSession UInt64 := ((QueueSession.around .fixed 64 4 true).run
      [.produce (.writeBatch (.ofArray #[1, 2, 3])) []]).2
    let written := model.queue.writeBounded .fixed (model.producerMeanwhile [[.remove]]) call
    have htaken : call.accepts written.1.reply = 2 ∧ call.refuses written.1.reply = 1 := by
      decide +kernel
    have hwritten : written.1.reply = reply := by
      rw [← hanswer] at hreply
      exact (StepReply.called.inj hreply).1
    rw [hwritten] at htaken
    rcases htaken with ⟨haccepts, hrefuses⟩
    have hinserted := hcounted.inserted_eq
    have hrejected := hcounted.rejected_eq
    rw [hmetrics, haccepts] at hinserted
    rw [hmetrics, hrefuses] at hrejected
    exact ⟨_, session, hrun, hreachable, hface, hmetered, hproducing, hmetrics, answer, next, hstep,
      hinserted, hrejected⟩
  · have hsteps : (around .growable 64 ring).AdmitsAll growing :=
      admitsAll_of_forall (by simp [growing, Admits]) _
    rcases (holds_around hring .growable 64).run hsteps with ⟨session, hrun, hsession⟩
    have hreachable : session.Reachable := (Reachable.around hring .growable 64).run hsteps hrun
    have hface : session.channel.face.growing = true := by
      rw [hsession.face_eq]
      decide +kernel
    have hrejected := ((offers_counted hreachable).2 hface).1
    exact ⟨_, session, hrun, hreachable, hface, hrejected⟩

end Session

end RingChannel
