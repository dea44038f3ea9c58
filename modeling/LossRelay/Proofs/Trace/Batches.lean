import LossRelay.Proofs.Trace.Offers
import LossRelay.Relay.TraceLog
import Mathlib.Data.List.Count
import Mathlib.Data.List.Forall2

/-!
# Batches and the reader that logs them

A reader that logs the trace sleeps while a batch of events is offered, and then takes all that
waits.  So nothing waits at the start of a batch; a batch that is longer than the queue loses its end,
and what is logged of it are its first events (`logBatch_serving`).
-/

namespace LossRelay.TraceQueue

/-- Batches are offered in order, each of them while the reader sleeps. -/
def logBatches (q : TraceQueue) :
    List (List TraceEvent) → TraceQueue × List (List Bool × List LogEntry)
  | [] => (q, [])
  | batch :: batches =>
    let (q, outcome) := q.logBatch batch
    let (q, outcomes) := q.logBatches batches
    (q, outcome :: outcomes)

/-! ### One batch -/

/-- Whether the events of a batch of the given size are queued, one after the other, if there is room
for so many: the first ones are. -/
def queuedFirst (room size : Nat) : List Bool :=
  List.replicate (min size room) true ++ List.replicate (size - room) false

theorem queuedFirst_zero (room : Nat) : queuedFirst room 0 = [] := by simp [queuedFirst]

theorem queuedFirst_of_room (room size : Nat) :
    queuedFirst (room + 1) (size + 1) = true :: queuedFirst room size := by
  unfold queuedFirst
  rw [Nat.add_min_add_right, Nat.add_sub_add_right, List.replicate_succ]
  rfl

theorem queuedFirst_of_full (size : Nat) :
    queuedFirst 0 (size + 1) = false :: queuedFirst 0 size := by
  simp [queuedFirst, List.replicate_succ]

/-- A queue with these events waiting for a reader who is there. -/
def serving (capacity : UInt64) (waiting : List TraceEvent) (discarded : UInt64) : TraceQueue :=
  ⟨some ⟨capacity, waiting, true⟩, discarded⟩

variable {capacity : UInt64} {waiting : List TraceEvent}

theorem serving_openFor (h : waiting.length ≤ capacity.toNat) (n : UInt64) :
    (serving capacity waiting n).OpenFor capacity := ⟨rfl, h⟩

/-- **A batch while the reader sleeps.**  As many events as there is room for are queued, in order;
the others are lost, and counted. -/
theorem offer_serving (batch : List TraceEvent) (n : UInt64) {room : Nat}
    (hroom : waiting.length + room = capacity.toNat) :
    (serving capacity waiting n).offer batch =
      (serving capacity (waiting ++ batch.take room) (n + .ofNat (batch.length - room)),
        queuedFirst room batch.length) := by
  induction batch generalizing waiting n room with
  | nil => simp [offer, queuedFirst_zero]
  | cons e batch ih =>
    have hopen := serving_openFor (show waiting.length ≤ capacity.toNat by omega) n
    unfold offer
    cases room with
    | zero =>
      -- there is no room for this event, nor for any after it
      have hemit : (serving capacity waiting n).emit e = (serving capacity waiting (n + 1), false) :=
        hopen.emit_of_full e hroom
      rw [hemit]
      dsimp only
      rw [ih (n + 1) hroom, List.length_cons, queuedFirst_of_full]
      simp [UInt64.ofNat_add, UInt64.add_assoc, UInt64.add_comm]
    | succ room =>
      have hfits : waiting.length < capacity.toNat := by omega
      have hemit : (serving capacity waiting n).emit e =
          (serving capacity (waiting ++ [e]) n, true) := hopen.emit_of_lt e hfits
      have hleft : (waiting ++ [e]).length + room = capacity.toNat := by
        rw [List.length_append, List.length_singleton]
        omega
      rw [hemit]
      dsimp only
      rw [ih n hleft, List.length_cons, queuedFirst_of_room]
      simp

theorem drain_serving (capacity : UInt64) (waiting : List TraceEvent) (n : UInt64) :
    (serving capacity waiting n).drain = (serving capacity [] n, waiting) := by
  show (serving capacity (waiting.drop waiting.length) n, waiting.take waiting.length) = _
  rw [List.drop_length, List.take_length]

/-- **One batch.**  Its first events are queued and logged, and again nothing waits. -/
theorem logBatch_serving (capacity : UInt64) (batch : List TraceEvent) (n : UInt64) :
    (serving capacity [] n).logBatch batch =
      (serving capacity [] (n + .ofNat (batch.length - capacity.toNat)),
        queuedFirst capacity.toNat batch.length,
        (batch.take capacity.toNat).map LogEntry.traced) := by
  unfold logBatch
  rw [offer_serving batch n (Nat.zero_add _), List.nil_append]
  dsimp only
  rw [drain_serving]

/-! ### Any number of batches -/

theorem logBatches_serving (capacity : UInt64) (batches : List (List TraceEvent)) (n : UInt64) :
    (serving capacity [] n).logBatches batches =
      (serving capacity []
          (n + .ofNat (batches.map fun batch => batch.length - capacity.toNat).sum),
        batches.map fun batch => (queuedFirst capacity.toNat batch.length,
          (batch.take capacity.toNat).map LogEntry.traced)) := by
  induction batches generalizing n with
  | nil => simp [logBatches]
  | cons batch batches ih =>
    unfold logBatches
    rw [logBatch_serving]
    dsimp only
    rw [ih, List.map_cons, List.sum_cons, UInt64.ofNat_add, UInt64.add_assoc]
    rfl

/-- **What is logged of batches.**  Let batches of events be offered to a queue for a number of events,
or for one if the number is zero, and let its reader log after each batch what it finds; a queue can
be had up to `TraceQueue.greatestCapacity`.  Of every
batch exactly the first events are queued, as many as the queue is for, and exactly these are logged
after it, in order and each as its line; no event is logged more often than it is in the batch just
offered, so none is logged twice or after a later batch.  The counter of the queue is the number of
all other events. -/
theorem logBatches_bounded (capacity : UInt64) (batches : List (List TraceEvent)) :
    let room := max capacity.toNat 1
    let (q, outcomes) := (bounded capacity).logBatches batches
    outcomes.map Prod.fst = batches.map (fun batch =>
      List.replicate (min batch.length room) true ++
        List.replicate (batch.length - room) false) ∧
    outcomes.map Prod.snd = batches.map (fun batch => (batch.take room).map LogEntry.traced) ∧
    outcomes.map (fun o => o.2.map LogEntry.message) =
      batches.map (fun batch => (batch.take room).map TraceEvent.line) ∧
    List.Forall₂ (fun batch o => ∀ e, o.2.count (.traced e) ≤ batch.count e) batches outcomes ∧
    q.discarded = .ofNat (batches.map fun batch => batch.length - room).sum := by
  have hrun := logBatches_serving (if capacity = 0 then 1 else capacity) batches 0
  rw [toNat_room] at hrun
  have hstart : bounded capacity = serving (if capacity = 0 then 1 else capacity) [] 0 := rfl
  rw [hstart, hrun]
  intro room
  dsimp only
  refine ⟨?_, ?_, ?_, ?_, ?_⟩
  · simp only [List.map_map, Function.comp_def]
    rfl
  · simp only [List.map_map, Function.comp_def, room]
  · have hline : ∀ e : TraceEvent, (LogEntry.traced e).message = e.line := fun _ => rfl
    simp only [List.map_map, Function.comp_def, room, hline]
  · rw [List.forall₂_map_right_iff]
    apply List.forall₂_same.mpr
    intro batch _ e
    have htraced : Function.Injective LogEntry.traced := fun _ _ h => LogEntry.traced.inj h
    rw [List.count_map_of_injective _ _ htraced]
    exact (List.take_sublist _ _).count_le e
  · exact UInt64.zero_add _

end LossRelay.TraceQueue
