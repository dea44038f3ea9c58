import LossRelay.Policy.Index
import LossRelay.Proofs.Relay.Entries
import LossRelay.Proofs.Trace.Histories

/-!
# No event is lost unaccounted

Between a policy that reports events and the reader of the trace stand two queues: the events that
are pending in the books, and the trace queue.  Entries come in any order, and the reader acts in
between.  Every event reported was offered to the queue or is pending
(`Ledger.reported_eq_offered`).  While the reader is there, what was kept of the offers was taken
or waits, and what was lost is counted (`Ledger.Conveyed`); once it is gone, nothing is kept
(`Ledger.enterAll_gone`).
-/

namespace LossRelay

namespace Ledger

variable {π : Type} [LossPolicy π]

def offers (l : Ledger π) : Entry → List Offer
  | .flush => l.queue.offers l.pending
  | _ => []

def takes (l : Ledger π) : Entry → List TraceEvent
  | .reading act => (l.queue.react act).2
  | _ => []

/-! ### Events on their way to the queue -/

/-- After an entry, what was pending and what is reported now was offered or is pending. -/
theorem reported_eq_offered_enter (l : Ledger π) (e : Entry) :
    l.pending ++ l.reports e = (l.offers e).map (·.event) ++ (l.enter e).pending := by
  cases e with
  | judge size time => exact (judge_pending l size time).symm
  | flush =>
    change l.pending ++ [] = (l.queue.offers l.pending).map (·.event) ++ []
    rw [TraceQueue.map_event_offers]
  | failed op => cases op <;> exact List.append_nil _
  | _ => exact List.append_nil _

/-- **Every event reported was offered to the queue, in order, or is pending.** -/
theorem reported_eq_offered (l : Ledger π) (es : List Entry) :
    l.pending ++ collect reports l es =
      (collect offers l es).map (·.event) ++ (l.enterAll es).pending := by
  induction es generalizing l with
  | nil => exact List.append_nil _
  | cons e es ih =>
    rw [collect, collect, ← List.append_assoc, reported_eq_offered_enter, List.append_assoc, ih,
      List.map_append, List.append_assoc]
    rfl

/-! ### Entries as moves of the trace queue -/

def moves (l : Ledger π) : Entry → List QueueMove
  | .flush => l.pending.map .offer
  | .reading act => [.reading act]
  | _ => []

theorem enter_moves (l : Ledger π) (e : Entry) :
    (l.enter e).queue = l.queue.moveAll (l.moves e) ∧
      l.offers e = l.queue.collect TraceQueue.meets (l.moves e) ∧
      l.takes e = l.queue.collect TraceQueue.takes (l.moves e) := by
  cases e with
  | judge size time => exact ⟨judge_queue l size time, rfl, rfl⟩
  | failed op => exact ⟨by cases op <;> rfl, rfl, rfl⟩
  | flush =>
    refine ⟨?_, ?_, ?_⟩
    · exact (TraceQueue.moveAll_offers l.queue l.pending).symm
    · exact (TraceQueue.collect_meets_offers l.queue l.pending).symm
    · exact (TraceQueue.collect_takes_offers l.queue l.pending).symm
  | reading act => exact ⟨rfl, rfl, (List.append_nil _).symm⟩
  | _ => exact ⟨rfl, rfl, rfl⟩

/-- **Entries do with the trace queue what their moves do.** -/
theorem enterAll_moves (l : Ledger π) (es : List Entry) :
    (l.enterAll es).queue = l.queue.moveAll (collect moves l es) ∧
      collect offers l es = l.queue.collect TraceQueue.meets (collect moves l es) ∧
      collect takes l es = l.queue.collect TraceQueue.takes (collect moves l es) := by
  induction es generalizing l with
  | nil => exact ⟨rfl, rfl, rfl⟩
  | cons e es ih =>
    obtain ⟨hqueue, hoffers, htakes⟩ := enter_moves l e
    obtain ⟨hqueue', hoffers', htakes'⟩ := ih (l.enter e)
    rw [enterAll_cons, collect, collect, collect, TraceQueue.moveAll_append,
      TraceQueue.collect_append, TraceQueue.collect_append, ← hqueue]
    refine ⟨hqueue', ?_, ?_⟩
    · rw [hoffers, hoffers']
    · rw [htakes, htakes']

theorem close_not_mem_moves (l : Ledger π) {es : List Entry} (hes : Entry.reading .close ∉ es) :
    QueueMove.reading .close ∉ collect moves l es := by
  induction es generalizing l with
  | nil => exact List.not_mem_nil
  | cons e es ih =>
    rw [List.mem_cons, not_or] at hes
    rw [collect, List.mem_append, not_or]
    refine ⟨?_, ih (l.enter e) hes.2⟩
    cases e with
    | flush => simp [moves]
    | reading act => simpa [moves] using hes.1
    | _ => exact List.not_mem_nil

/-! ### While the reader is there -/

/-- What entries have done with the trace while the reader was there: of all offers the kept ones
followed those that waited, to be taken or to wait in turn, the lost ones were counted, and they are
those that found the queue full. -/
structure Conveyed (capacity : UInt64) (l : Ledger π) (es : List Entry) : Prop where
  isOpen : (l.enterAll es).queue.OpenFor capacity
  waiting : collect takes l es ++ (l.enterAll es).queue.waiting =
    l.queue.waiting ++ Offer.kept (collect offers l es)
  discarded : (l.enterAll es).queue.discarded =
    l.queue.discarded + .ofNat (Offer.lost (collect offers l es))
  full : ∀ o ∈ collect offers l es, o.queued = false ↔ o.ahead = capacity.toNat

variable {capacity : UInt64} {l : Ledger π}

/-- **Any entries convey** until the reader leaves. -/
theorem conveyed_enterAll (h : l.queue.OpenFor capacity) {es : List Entry}
    (hes : Entry.reading .close ∉ es) : Conveyed capacity l es := by
  obtain ⟨hqueue, hoffers, htakes⟩ := enterAll_moves l es
  have hserved := h.served (close_not_mem_moves l hes)
  constructor
  · rw [hqueue]
    exact hserved.isOpen
  · rw [hqueue, hoffers, htakes]
    exact hserved.waiting
  · rw [hqueue, hoffers]
    exact hserved.discarded
  · rw [hoffers]
    exact hserved.full

/-! ### Once the reader is gone -/

/-- **Nothing is delivered once the reader is gone**, and at most one event more is counted. -/
theorem enterAll_gone (h : l.queue.Gone) (es : List Entry) :
    collect takes l es = [] ∧ (∀ o ∈ collect offers l es, o.queued = false) ∧
      (l.enterAll es).queue = if collect offers l es = [] then l.queue
        else ⟨none, l.queue.discarded + if l.queue.isEnabled then 1 else 0⟩ := by
  obtain ⟨hqueue, hoffers, htakes⟩ := enterAll_moves l es
  obtain ⟨htaken, hlost⟩ := h.collect (collect moves l es)
  have hnone : collect offers l es = [] ↔
      (collect moves l es).filterMap QueueMove.offered? = [] := by
    rw [hoffers, ← TraceQueue.map_event_collect_meets l.queue, List.map_eq_nil_iff]
  refine ⟨htakes.trans htaken, ?_, ?_⟩
  · rw [hoffers]
    exact hlost
  · rw [hqueue, h.moveAll]
    simp only [hnone]

/-! ### The whole trace -/

/-- What was kept and what is pending misses as many events as were lost. -/
theorem length_missing {events kept pending : List TraceEvent} {offered : List Offer}
    (hevents : events = offered.map (·.event) ++ pending) (hkept : kept = Offer.kept offered) :
    events.length - (kept ++ pending).length = Offer.lost offered := by
  have hcount := Offer.length_kept_add_lost offered
  rw [hevents, hkept, List.length_append, List.length_append, List.length_map]
  omega

/-- **No event is lost unaccounted.**  Make entries of any kind in any order in fresh books, and let
the reader of the trace act in between.  The queue is one that can be had
(`TraceQueue.greatestCapacity`).

While the reader is there, the events reported are those offered to the queue, followed by those
that are pending.  The offers that were kept are what the reader took, followed by what waits; so
together with the pending events they are a part of the events in their order, and the counter of
lost events is the number of those that are missing.  No more events wait than the queue is for, and
an offer is lost exactly if it found so many.

Once the reader has left, nothing is taken or waits any more, a flush still leaves nothing pending,
and the first offer is the only one that is counted.  Without a queue nothing is ever counted. -/
theorem events_conserved (policy : π) (capacity : UInt64) (before after : List Entry)
    (hopen : Entry.reading .close ∉ before) :
    let start := fresh policy (.bounded capacity)
    let l := start.enterAll before
    let events := collect reports start before
    let offered := collect offers start before
    let delivered := collect takes start before ++ l.queue.waiting
    let left := l.enter (.reading .close)
    let late := collect offers left after
    let m := left.enterAll after
    (events = offered.map (·.event) ++ l.pending ∧
      delivered = Offer.kept offered ∧
      (delivered ++ l.pending).Sublist events ∧
      l.stats.traceDiscarded = .ofNat (events.length - (delivered ++ l.pending).length) ∧
      l.queue.waiting.length ≤ max capacity.toNat 1 ∧
      ∀ o ∈ offered, o.queued = false ↔ o.ahead = max capacity.toNat 1) ∧
    (collect takes left after = [] ∧ m.queue.waiting = [] ∧
      l.pending ++ collect reports left after = late.map (·.event) ++ m.pending ∧
      (m.enter .flush).pending = [] ∧
      m.stats.traceDiscarded = l.stats.traceDiscarded + if late = [] then 0 else 1) ∧
    ∀ entries,
      let start := fresh policy .disabled
      let l := start.enterAll entries
      collect reports start entries =
          (collect offers start entries).map (·.event) ++ l.pending ∧
        (l.enter .flush).pending = [] ∧ l.stats.traceDiscarded = 0 := by
  intro start l events offered delivered left late m
  obtain ⟨hend, hwaiting, hdiscarded, hfull⟩ :=
    conveyed_enterAll (l := start) (TraceQueue.bounded_openFor capacity) hopen
  have hevents : events = offered.map (·.event) ++ l.pending := reported_eq_offered start before
  have hdelivered : delivered = Offer.kept offered := hwaiting
  have hfits := hend.fits
  rw [TraceQueue.toNat_room] at hfits hfull
  refine ⟨⟨hevents, hdelivered, ?_, ?_, hfits, hfull⟩, ?_, fun entries => ?_⟩
  · rw [hevents, hdelivered]
    exact (Offer.kept_sublist offered).append (List.Sublist.refl _)
  · rw [length_missing hevents hdelivered]
    exact hdiscarded.trans (UInt64.zero_add _)
  · -- the queue counts one more offer, because it was enabled when the reader left
    have hgone : left.queue.Gone := l.queue.close_gone
    have henabled : left.queue.isEnabled = true := by
      change (l.queue.channel.map _).isSome = true
      rw [hend.channel]
      rfl
    obtain ⟨htakes, -, hqueue⟩ := enterAll_gone hgone after
    have hlast : m.queue.Gone := by
      rw [hqueue]
      split
      · exact hgone
      · exact nofun
    refine ⟨htakes, hlast.waiting, reported_eq_offered left after, rfl, ?_⟩
    have hcount : m.queue.discarded = l.queue.discarded + if late = [] then 0 else 1 := by
      rw [hqueue, henabled]
      by_cases hlate : late = []
      · rw [if_pos hlate, if_pos hlate]
        exact (UInt64.add_zero _).symm
      · rw [if_neg hlate, if_neg hlate]
        rfl
    exact hcount
  · intro start l
    obtain ⟨-, -, hqueue⟩ := enterAll_gone (l := start) TraceQueue.disabled_gone entries
    refine ⟨reported_eq_offered start entries, rfl, ?_⟩
    change l.queue.discarded = 0
    rw [hqueue]
    split <;> rfl

/-- A queue for one event: of three events the reader takes the first, the second is lost, the third
waits, and of two more that are pending when the reader leaves one is counted. -/
theorem events_conserved_of_five :
    let policy : IndexPolicy := ⟨⟨10, .ofList [1], .empty⟩⟩
    let judge : Entry := .judge 4 .zero
    let before : List Entry :=
      [judge, judge, .flush, .reading (.take 1), judge, .flush, .failed .send, judge, judge]
    let after : List Entry := [.flush, .forwarded 4, .flush]
    let start := fresh policy (.bounded 1)
    let l := start.enterAll before
    let m := (l.enter (.reading .close)).enterAll after
    Entry.reading .close ∉ before ∧
    collect takes start before ++ l.queue.waiting = [.packet 0 .forward, .packet 2 .forward] ∧
    l.stats.traceDiscarded = 1 ∧ m.stats.traceDiscarded = 2 := by
  intro policy judge before after start l m
  have hopen : Entry.reading .close ∉ before := by decide
  obtain ⟨⟨-, hdelivered, -, hcount, -, -⟩, ⟨-, -, -, -, hlate⟩, -⟩ :=
    events_conserved policy 1 before after hopen
  refine ⟨hopen, hdelivered.trans (by decide), hcount.trans (by decide), hlate.trans ?_⟩
  rw [hcount]
  decide

end Ledger

end LossRelay
