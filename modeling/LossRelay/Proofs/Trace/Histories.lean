import LossRelay.Proofs.Trace.Losses
import LossRelay.Proofs.Trace.Offers
import Mathlib.Data.List.TakeWhile

/-!
# A trace queue and its reader

Events are offered to a trace queue while its reader takes from it, and at some moment the reader
may leave; all of this in any order.  Up to that moment the queue is first in, first out: what was
taken and what waits are the events that it took in (`Served`).  From then on it takes nothing, and the
next offer disables it for good (`Gone.moveAll`).
-/

namespace LossRelay

/-! ### Moves before and after the reader leaves -/

namespace QueueMove

/-- The moves up to the moment when the reader leaves. -/
def untilClose (ms : List QueueMove) : List QueueMove := ms.takeWhile (· ≠ .reading .close)

/-- The events that are offered after the reader has left. -/
def offeredLate (ms : List QueueMove) : List TraceEvent :=
  (ms.dropWhile (· ≠ .reading .close)).filterMap offered?

theorem ne_close {m : QueueMove} {ms : List QueueMove} (h : .reading .close ∉ ms) (hm : m ∈ ms) :
    decide (m ≠ .reading .close) = true := by
  simpa using ne_of_mem_of_not_mem hm h

theorem untilClose_of_not_mem {ms : List QueueMove} (h : .reading .close ∉ ms) :
    untilClose ms = ms :=
  List.takeWhile_eq_self_iff.mpr fun _ hm => ne_close h hm

theorem offeredLate_of_not_mem {ms : List QueueMove} (h : .reading .close ∉ ms) :
    offeredLate ms = [] := by
  have hnone : ms.dropWhile (· ≠ .reading .close) = [] :=
    List.dropWhile_eq_nil_iff.mpr fun _ hm => ne_close h hm
  unfold offeredLate
  rw [hnone]
  rfl

variable {before : List QueueMove} (h : .reading .close ∉ before) (after : List QueueMove)

include h

theorem untilClose_of_close : untilClose (before ++ .reading .close :: after) = before := by
  unfold untilClose
  rw [List.takeWhile_append_of_pos fun _ hm => ne_close h hm]
  simp

theorem offeredLate_of_close :
    offeredLate (before ++ .reading .close :: after) = after.filterMap offered? := by
  unfold offeredLate
  rw [List.dropWhile_append_of_pos fun _ hm => ne_close h hm]
  rfl

end QueueMove

namespace TraceQueue

/-! ### What moves yield -/

section Collect

variable {α : Type} (yield : TraceQueue → QueueMove → List α)

/-- What moves in order yield, if each yields something in the queue it finds. -/
def collect (q : TraceQueue) : List QueueMove → List α
  | [] => []
  | m :: ms => yield q m ++ collect (q.move m) ms

theorem collect_singleton (q : TraceQueue) (m : QueueMove) : collect yield q [m] = yield q m :=
  List.append_nil _

theorem collect_append (q : TraceQueue) (ms ms' : List QueueMove) :
    collect yield q (ms ++ ms') = collect yield q ms ++ collect yield (q.moveAll ms) ms' := by
  induction ms generalizing q with
  | nil => rfl
  | cons m ms ih =>
    rw [List.cons_append, collect, ih, collect, List.append_assoc]
    rfl

end Collect

/-- The offer that a move makes: what it finds waiting, and whether it is queued. -/
def meets (q : TraceQueue) : QueueMove → List Offer
  | .offer e => q.offers [e]
  | .reading _ => []

def takes (q : TraceQueue) : QueueMove → List TraceEvent
  | .offer _ => []
  | .reading act => (q.react act).2

theorem collect_meets_offers (q : TraceQueue) (es : List TraceEvent) :
    q.collect meets (es.map .offer) = q.offers es := by
  induction es generalizing q with
  | nil => rfl
  | cons e es ih => exact congrArg (q.offers [e] ++ ·) (ih (q.emit e).1)

theorem collect_takes_offers (q : TraceQueue) (es : List TraceEvent) :
    q.collect takes (es.map .offer) = [] := by
  induction es generalizing q with
  | nil => rfl
  | cons e es ih => exact ih (q.emit e).1

theorem map_event_collect_meets (q : TraceQueue) (ms : List QueueMove) :
    (q.collect meets ms).map (·.event) = ms.filterMap QueueMove.offered? := by
  induction ms generalizing q with
  | nil => rfl
  | cons m ms ih =>
    rw [collect, List.map_append, ih]
    cases m with
    | offer e => rfl
    | reading act => rfl

theorem moveAll_cons (q : TraceQueue) (m : QueueMove) (ms : List QueueMove) :
    q.moveAll (m :: ms) = (q.move m).moveAll ms := rfl

/-! ### While the reader is there -/

variable {q : TraceQueue} {capacity : UInt64}

theorem OpenFor.isEnabled (h : q.OpenFor capacity) : q.isEnabled = true := by
  unfold TraceQueue.isEnabled
  rw [h.channel]
  rfl

theorem OpenFor.queued_iff (h : q.OpenFor capacity) (e : TraceEvent) :
    (q.emit e).2 = true ↔ q.waiting.length < capacity.toNat := by
  constructor
  · intro hqueued
    by_contra hfull
    rw [h.emit_of_full e (Nat.le_antisymm h.fits (Nat.not_lt.mp hfull))] at hqueued
    cases hqueued
  · intro hroom
    rw [h.emit_of_lt e hroom]

/-- What moves do while the reader is there: the events that were queued follow those that waited, to
be taken in this order or to wait in turn; the others are counted, and they are those that found the
queue full. -/
structure Served (capacity : UInt64) (q : TraceQueue) (ms : List QueueMove) : Prop where
  isOpen : (q.moveAll ms).OpenFor capacity
  waiting : q.collect takes ms ++ (q.moveAll ms).waiting =
    q.waiting ++ Offer.kept (q.collect meets ms)
  discarded : (q.moveAll ms).discarded =
    q.discarded + .ofNat (Offer.lost (q.collect meets ms))
  full : ∀ o ∈ q.collect meets ms, o.queued = false ↔ o.ahead = capacity.toNat

theorem OpenFor.served_nil (h : q.OpenFor capacity) : Served capacity q [] where
  isOpen := h
  waiting := (List.append_nil _).symm
  discarded := (UInt64.add_zero _).symm
  full := nofun

/-- **One move**, unless the reader leaves. -/
theorem OpenFor.served_move (h : q.OpenFor capacity) {m : QueueMove} (hm : m ≠ .reading .close) :
    Served capacity q [m] := by
  cases m with
  | offer e =>
    obtain ⟨hopen, hwaiting, hdiscarded, hfull⟩ := h.emitAll [e]
    constructor
    · exact hopen
    · rw [collect_singleton, collect_singleton]
      exact hwaiting
    · rw [collect_singleton]
      exact hdiscarded
    · rw [collect_singleton]
      exact hfull
  | reading act =>
    cases act with
    | close => exact absurd rfl hm
    | take most =>
      obtain ⟨hopen, hwaiting, hdiscarded⟩ := h.take most
      constructor
      · exact hopen
      · rw [collect_singleton, collect_singleton]
        exact hwaiting.trans (List.append_nil _).symm
      · exact hdiscarded.trans (UInt64.add_zero _).symm
      · exact nofun

/-- **Moves in a row.** -/
theorem Served.append {ms ms' : List QueueMove} (h : Served capacity q ms)
    (h' : Served capacity (q.moveAll ms) ms') : Served capacity q (ms ++ ms') where
  isOpen := by
    rw [moveAll_append]
    exact h'.isOpen
  waiting := by
    rw [collect_append, collect_append, Offer.kept_append, moveAll_append, List.append_assoc,
      h'.waiting, ← List.append_assoc, h.waiting, List.append_assoc]
  discarded := by
    rw [collect_append, Offer.lost_append, moveAll_append, h'.discarded, h.discarded,
      UInt64.ofNat_add, UInt64.add_assoc]
  full := by
    intro o ho
    rw [collect_append] at ho
    rcases List.mem_append.mp ho with ho | ho
    · exact h.full o ho
    · exact h'.full o ho

/-- **Any moves** until the reader leaves. -/
theorem OpenFor.served (h : q.OpenFor capacity) {ms : List QueueMove}
    (hms : .reading .close ∉ ms) : Served capacity q ms := by
  induction ms generalizing q with
  | nil => exact h.served_nil
  | cons m ms ih =>
    rw [List.mem_cons, not_or] at hms
    have hfirst := h.served_move (Ne.symm hms.1)
    exact hfirst.append (ih hfirst.isOpen hms.2)

/-- As many offers are lost as have found the queue full. -/
theorem Served.lost_eq {ms : List QueueMove} (h : Served capacity q ms) :
    Offer.lost (q.collect meets ms) =
      (q.collect meets ms).countP fun o => o.ahead = capacity.toNat := by
  apply List.countP_congr
  intro o ho
  simpa using h.full o ho

/-! ### Once the reader is gone -/

theorem Gone.react (h : q.Gone) (act : Reading) : q.react act = (q, []) := by
  cases act with
  | take most => exact h.take most
  | close => exact congrArg (·, []) h.close

theorem Gone.move (h : q.Gone) (m : QueueMove) : (q.move m).Gone := by
  cases m with
  | offer e =>
    have hnone : (q.move (.offer e)).channel = none := congrArg (fun r => r.1.channel) (h.emit e)
    intro c hc
    rw [hnone] at hc
    cases hc
  | reading act =>
    have hsame : q.move (.reading act) = q := congrArg Prod.fst (h.react act)
    rw [hsame]
    exact h

/-- What the reader does is without effect, so moves are what the offers among them are. -/
theorem Gone.moveAll_eq_emitAll (h : q.Gone) (ms : List QueueMove) :
    q.moveAll ms = q.emitAll (ms.filterMap QueueMove.offered?) := by
  induction ms generalizing q with
  | nil => rfl
  | cons m ms ih =>
    rw [moveAll_cons, ih (h.move m)]
    cases m with
    | offer e => rfl
    | reading act =>
      have hsame : q.move (.reading act) = q := congrArg Prod.fst (h.react act)
      rw [hsame]
      rfl

/-- **The first offer disables the queue**, and is the last that is counted. -/
theorem Gone.moveAll (h : q.Gone) (ms : List QueueMove) :
    q.moveAll ms = if ms.filterMap QueueMove.offered? = [] then q
      else ⟨none, q.discarded + if q.isEnabled then 1 else 0⟩ := by
  rw [h.moveAll_eq_emitAll, h.emitAll]

theorem Gone.collect (h : q.Gone) (ms : List QueueMove) :
    q.collect takes ms = [] ∧ ∀ o ∈ q.collect meets ms, o.queued = false := by
  induction ms generalizing q with
  | nil => exact ⟨rfl, nofun⟩
  | cons m ms ih =>
    obtain ⟨htaken, hlost⟩ := ih (h.move m)
    rw [TraceQueue.collect, TraceQueue.collect, htaken]
    cases m with
    | offer e =>
      refine ⟨rfl, fun o ho => ?_⟩
      rcases List.mem_append.mp ho with ho | ho
      · exact h.queued [e] o ho
      · exact hlost o ho
    | reading act => exact ⟨congrArg (·.2 ++ []) (h.react act), hlost⟩

/-- A queue that is disabled refuses every event, and no move changes it. -/
theorem stays_disabled (q : TraceQueue) (h : q.isEnabled = false) :
    (∀ e, q.emit e = (q, false)) ∧ ∀ ms, q.moveAll ms = q := by
  obtain ⟨_ | c, n⟩ := q
  · have hgone : (TraceQueue.mk none n).Gone := nofun
    refine ⟨fun e => rfl, fun ms => ?_⟩
    rw [hgone.moveAll]
    simp [isEnabled]
  · cases h

/-! ### The moment when the reader leaves -/

/-- What the reader leaves behind, and what the moves after it make of it. -/
theorem OpenFor.moveAll_close (h : q.OpenFor capacity) {before : List QueueMove}
    (hbefore : .reading .close ∉ before) (after : List QueueMove) :
    let last := q.moveAll (before ++ .reading .close :: after)
    let late := after.filterMap QueueMove.offered?
    last.Gone ∧ (last.isEnabled = true ↔ late = []) ∧
      last.discarded = q.discarded + .ofNat (Offer.lost (q.collect meets before)) +
        if late = [] then 0 else 1 := by
  intro last late
  have hserved := h.served hbefore
  -- the queue right after the reader has left
  let left := (q.moveAll before).close
  have hgone : left.Gone := close_gone _
  have henabled : left.isEnabled = true := by
    rw [← hserved.isOpen.isEnabled]
    exact Option.isSome_map
  have hleft : left.discarded = (q.moveAll before).discarded := rfl
  have hlast : last = if late = [] then left else ⟨none, left.discarded + 1⟩ := by
    have hafter := hgone.moveAll after
    rw [henabled] at hafter
    exact (moveAll_append q before (.reading .close :: after)).trans hafter
  rw [hlast, ← hserved.discarded, ← hleft]
  by_cases hlate : late = []
  · rw [if_pos hlate, if_pos hlate]
    exact ⟨hgone, iff_of_true henabled hlate, (UInt64.add_zero _).symm⟩
  · rw [if_neg hlate, if_neg hlate]
    exact ⟨nofun, iff_of_false Bool.false_ne_true hlate, rfl⟩

theorem collect_close (q : TraceQueue) (before after : List QueueMove) :
    q.collect takes (before ++ .reading .close :: after) = q.collect takes before ∧
      Offer.kept (q.collect meets (before ++ .reading .close :: after)) =
        Offer.kept (q.collect meets before) := by
  have hgone : ((q.moveAll before).move (.reading .close)).Gone := close_gone _
  obtain ⟨htaken, hlost⟩ := hgone.collect after
  rw [collect_append, collect_append, collect, collect, Offer.kept_append, Offer.kept_append,
    htaken, Offer.kept_eq_nil hlost]
  constructor
  · exact List.append_nil _
  · exact List.append_nil _

/-! ### From the first move on -/

/-- **What a trace queue does, whatever the order of moves.**  Let any moves be made on a queue for a
number of events, or for one if the number is zero; a queue can be had up to
`TraceQueue.greatestCapacity`.  An event that is offered next is queued if and
only if the reader has not left and fewer events wait than the queue is for.  The events that the
reader has taken are the first of those that were queued, in order, and until the reader leaves the
others are those that wait.  The counter is the number of offers that found the queue full while
the reader was there, and one more if there was an offer after the reader had left; the queue is
enabled until there is such an offer.  Once it is disabled it refuses every event, and no move
changes it any more. -/
theorem bounded_moveAll (capacity : UInt64) (ms : List QueueMove) :
    let start := bounded capacity
    let q := start.moveAll ms
    let room := max capacity.toNat 1
    let queued := Offer.kept (start.collect meets ms)
    let taken := start.collect takes ms
    let foundFull := (start.collect meets (QueueMove.untilClose ms)).countP fun o => o.ahead = room
    let late := QueueMove.offeredLate ms
    (∀ e, (q.emit e).2 = true ↔ .reading .close ∉ ms ∧ q.waiting.length < room) ∧
    taken <+: queued ∧ (.reading .close ∉ ms → taken ++ q.waiting = queued) ∧
    q.discarded = .ofNat (foundFull + if late = [] then 0 else 1) ∧
    (q.isEnabled = true ↔ late = []) ∧
    (q.isEnabled = false → (∀ e, q.emit e = (q, false)) ∧ ∀ more, q.moveAll more = q) := by
  have hstart : (bounded capacity).OpenFor (if capacity = 0 then 1 else capacity) :=
    bounded_openFor capacity
  have hroom := toNat_room capacity
  intro start q room queued taken foundFull late
  by_cases hclose : QueueMove.reading .close ∈ ms
  · -- the reader has left in the course of the moves
    obtain ⟨before, after, rfl, hbefore⟩ := List.eq_append_cons_of_mem hclose
    have hserved := hstart.served hbefore
    obtain ⟨hgone, henabled, hdiscarded⟩ := hstart.moveAll_close hbefore after
    obtain ⟨htaken, hqueued⟩ := collect_close start before after
    rw [hserved.lost_eq, hroom] at hdiscarded
    unfold foundFull late
    rw [QueueMove.untilClose_of_close hbefore, QueueMove.offeredLate_of_close hbefore]
    refine ⟨fun e => ?_, ?_, fun h => absurd hclose h, ?_, henabled, q.stays_disabled⟩
    · have hlost : (q.emit e).2 = false := congrArg Prod.snd (hgone.emit e)
      simp [hlost, hclose]
    · unfold taken queued
      rw [htaken, hqueued]
      exact ⟨_, hserved.waiting⟩
    · unfold q start
      rw [hdiscarded, UInt64.ofNat_add, apply_ite UInt64.ofNat]
      exact congrArg (· + _) (UInt64.zero_add _)
  · -- the reader is still there
    have hserved := hstart.served hclose
    have hdiscarded := hserved.discarded
    have hfits := hserved.isOpen.queued_iff
    rw [hserved.lost_eq] at hdiscarded
    rw [hroom] at hdiscarded hfits
    unfold foundFull late
    rw [QueueMove.untilClose_of_not_mem hclose, QueueMove.offeredLate_of_not_mem hclose]
    refine ⟨fun e => ?_, ⟨_, hserved.waiting⟩, fun _ => hserved.waiting, ?_, ?_, q.stays_disabled⟩
    · rw [hfits e]
      exact (and_iff_right hclose).symm
    · exact hdiscarded.trans (UInt64.zero_add _)
    · exact iff_of_true hserved.isOpen.isEnabled rfl

/-- A queue for one event: the second offer finds it full, the third follows a taken event and waits
when the reader leaves, and of the last two one is counted. -/
example :
    let ms : List QueueMove :=
      [.offer (.packet 0 .forward), .offer (.packet 1 .drop), .reading (.take 4),
        .offer (.packet 2 .forward), .reading .close, .offer (.packet 3 .forward),
        .offer (.packet 4 .drop)]
    (bounded 0).collect takes ms = [.packet 0 .forward] ∧
      Offer.kept ((bounded 0).collect meets ms) = [.packet 0 .forward, .packet 2 .forward] ∧
      (bounded 0).moveAll ms = ⟨none, 2⟩ := by decide

end TraceQueue

end LossRelay
