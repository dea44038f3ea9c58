import LossRelay.Proofs.Relay.History

/-!
# Lost events

Events are offered to the trace queue while its reader acts, in any order.  An event is lost if the
queue is enabled and does not take it.  `TraceQueue.losses` are these events, and the counter of
the queue has grown by their number (`TraceQueue.discarded_moveAll`), whatever the reader does.
-/

namespace LossRelay

/-- An event is offered to the trace queue, or its reader acts. -/
inductive QueueMove where
  | offer (event : TraceEvent)
  | reading (act : Reading)
  deriving DecidableEq

def QueueMove.offered? : QueueMove → Option TraceEvent
  | .offer e => some e
  | .reading _ => none

namespace TraceQueue

/-- The queue after a move. -/
def move (q : TraceQueue) : QueueMove → TraceQueue
  | .offer e => (q.emit e).1
  | .reading act => (q.react act).1

def moveAll (q : TraceQueue) (ms : List QueueMove) : TraceQueue := ms.foldl move q

/-- The event that a move loses: the queue is enabled and does not take it. -/
def loss (q : TraceQueue) : QueueMove → List TraceEvent
  | .offer e => if q.isEnabled ∧ (q.emit e).2 = false then [e] else []
  | .reading _ => []

/-- The events that moves in order lose. -/
def losses (q : TraceQueue) : List QueueMove → List TraceEvent
  | [] => []
  | m :: ms => q.loss m ++ (q.move m).losses ms

theorem moveAll_append (q : TraceQueue) (ms ms' : List QueueMove) :
    q.moveAll (ms ++ ms') = (q.moveAll ms).moveAll ms' := List.foldl_append

theorem moveAll_offers (q : TraceQueue) (es : List TraceEvent) :
    q.moveAll (es.map .offer) = q.emitAll es := List.foldl_map

theorem moveAll_readings (q : TraceQueue) (acts : List Reading) :
    q.moveAll (acts.map .reading) = (q.reactAll acts).1 := by
  induction acts generalizing q with
  | nil => rfl
  | cons act acts ih => exact ih (q.react act).1

/-! ### The counter -/

theorem discarded_react (q : TraceQueue) (act : Reading) :
    (q.react act).1.discarded = q.discarded := by
  cases act with
  | take most =>
    unfold react take
    dsimp only
    split
    · split <;> rfl
    · rfl
  | close => rfl

theorem discarded_emit (q : TraceQueue) (e : TraceEvent) :
    (q.emit e).1.discarded =
      q.discarded + if q.isEnabled ∧ (q.emit e).2 = false then 1 else 0 := by
  obtain ⟨_ | c, n⟩ := q
  · simp [emit, isEnabled]
  · by_cases hopen : c.readerOpen = true
    · by_cases hfull : c.capacity.toNat ≤ c.waiting.length
      · simp [emit, isEnabled, hopen, hfull]
      · simp [emit, isEnabled, hopen, hfull]
    · simp [emit, isEnabled, hopen]

theorem discarded_move (q : TraceQueue) (m : QueueMove) :
    (q.move m).discarded = q.discarded + .ofNat (q.loss m).length := by
  cases m with
  | offer e =>
    refine (discarded_emit q e).trans ?_
    unfold loss
    dsimp only
    split <;> rfl
  | reading act => exact (discarded_react q act).trans (UInt64.add_zero _).symm

/-- **The counter grows by the events that were lost**, whatever the reader does in between. -/
theorem discarded_moveAll (q : TraceQueue) (ms : List QueueMove) :
    (q.moveAll ms).discarded = q.discarded + .ofNat (q.losses ms).length := by
  induction ms generalizing q with
  | nil => exact (UInt64.add_zero _).symm
  | cons m ms ih =>
    have hrest : (q.moveAll (m :: ms)).discarded =
        (q.move m).discarded + .ofNat ((q.move m).losses ms).length := ih (q.move m)
    rw [hrest, discarded_move, losses, List.length_append, UInt64.ofNat_add, UInt64.add_assoc]

/-! ### What can be lost -/

/-- The events that were lost are some of those that were offered, in order. -/
theorem losses_sublist (q : TraceQueue) (ms : List QueueMove) :
    (q.losses ms).Sublist (ms.filterMap QueueMove.offered?) := by
  induction ms generalizing q with
  | nil => exact List.Sublist.refl []
  | cons m ms ih =>
    cases m with
    | offer e =>
      unfold losses loss
      dsimp only
      split
      · exact (ih _).cons_cons e
      · exact (ih _).cons e
    | reading act => exact ih _

/-- The counter grows by the number of events lost, as long as all events offered can be counted. -/
theorem toNat_discarded_moveAll {q : TraceQueue} {ms : List QueueMove}
    (h : q.discarded.toNat + (ms.filterMap QueueMove.offered?).length < 2 ^ 64) :
    (q.moveAll ms).discarded.toNat = q.discarded.toNat + (q.losses ms).length := by
  have hle := (losses_sublist q ms).length_le
  have hword : (UInt64.ofNat (q.losses ms).length).toNat = (q.losses ms).length :=
    UInt64.toNat_ofNat_of_lt' (show _ < 2 ^ 64 by omega)
  rw [discarded_moveAll, UInt64.toNat_add, hword]
  exact Nat.mod_eq_of_lt (by omega)

end TraceQueue

end LossRelay
