import LossRelay.Trace.Queue
import Mathlib.Algebra.GroupWithZero.Nat

/-!
# Offers to the trace queue

An event that is offered to the queue finds some events waiting ahead of it, and is queued or not.
What a list of offers does to a queue depends on its reader: while the reader is there, the queue
takes what it has room for and counts the rest (`OpenFor.emitAll`); once the reader is gone, it takes
nothing and counts one event at most (`Gone.emitAll`).
-/

namespace LossRelay

/-- An event that was offered: how many events waited ahead of it, and whether it was queued. -/
structure Offer where
  event : TraceEvent
  ahead : Nat
  queued : Bool
  deriving DecidableEq

namespace Offer

/-- The events of a list of offers that were queued. -/
def kept (os : List Offer) : List TraceEvent := (os.filter (·.queued)).map (·.event)

/-- How many events of a list of offers were not queued. -/
def lost (os : List Offer) : Nat := os.countP fun o => !o.queued

theorem kept_append (os os' : List Offer) : kept (os ++ os') = kept os ++ kept os' := by
  simp [kept]

theorem lost_append (os os' : List Offer) : lost (os ++ os') = lost os + lost os' := by
  simp [lost]

theorem length_kept_add_lost (os : List Offer) : (kept os).length + lost os = os.length := by
  unfold kept lost
  rw [List.length_map]
  simpa [List.countP_eq_length_filter] using
    (List.length_eq_countP_add_countP Offer.queued (l := os)).symm

theorem kept_eq_nil {os : List Offer} (h : ∀ o ∈ os, o.queued = false) : kept os = [] := by
  unfold kept
  rw [List.map_eq_nil_iff, List.filter_eq_nil_iff]
  intro o ho
  simp [h o ho]

theorem kept_sublist (os : List Offer) : (kept os).Sublist (os.map (·.event)) :=
  List.Sublist.map _ List.filter_sublist

end Offer

namespace TraceQueue

open Offer (kept lost)

def offers (q : TraceQueue) : List TraceEvent → List Offer
  | [] => []
  | e :: es => ⟨e, q.waiting.length, (q.emit e).2⟩ :: (q.emit e).1.offers es

theorem map_event_offers (q : TraceQueue) (es : List TraceEvent) :
    (q.offers es).map (·.event) = es := by
  induction es generalizing q with
  | nil => rfl
  | cons e es ih => rw [offers, List.map_cons, ih]

theorem emitAll_cons (q : TraceQueue) (e : TraceEvent) (es : List TraceEvent) :
    q.emitAll (e :: es) = (q.emit e).1.emitAll es := rfl

/-! ### While the reader is there -/

/-- The reader is there, and no more events wait than the queue is for. -/
structure OpenFor (q : TraceQueue) (capacity : UInt64) : Prop where
  channel : q.channel = some ⟨capacity, q.waiting, true⟩
  fits : q.waiting.length ≤ capacity.toNat

variable {q : TraceQueue} {capacity : UInt64}

theorem bounded_openFor (capacity : UInt64) :
    (bounded capacity).OpenFor (if capacity = 0 then 1 else capacity) := ⟨rfl, Nat.zero_le _⟩

theorem toNat_room (capacity : UInt64) :
    (if capacity = 0 then 1 else capacity).toNat = max capacity.toNat 1 := by
  split
  · rename_i h
    subst h
    rfl
  · rename_i h
    have hpos : 0 < capacity.toNat :=
      Nat.pos_of_ne_zero fun h0 => h (UInt64.toNat_inj.mp h0)
    omega

theorem OpenFor.emit_of_lt (h : q.OpenFor capacity) (e : TraceEvent)
    (hroom : q.waiting.length < capacity.toNat) :
    q.emit e = (⟨some ⟨capacity, q.waiting ++ [e], true⟩, q.discarded⟩, true) := by
  unfold emit
  rw [h.channel]
  simp [Nat.not_le.mpr hroom]

theorem OpenFor.emit_of_full (h : q.OpenFor capacity) (e : TraceEvent)
    (hfull : q.waiting.length = capacity.toNat) :
    q.emit e = (⟨q.channel, q.discarded + 1⟩, false) := by
  unfold emit
  rw [h.channel]
  simp [hfull]

/-- **What an open queue does with offers.**  It stays open, has the kept events behind those that
waited, has counted the lost ones, and lost only those that found it full. -/
theorem OpenFor.emitAll (h : q.OpenFor capacity) (es : List TraceEvent) :
    (q.emitAll es).OpenFor capacity ∧
      (q.emitAll es).waiting = q.waiting ++ kept (q.offers es) ∧
      (q.emitAll es).discarded = q.discarded + .ofNat (lost (q.offers es)) ∧
      ∀ o ∈ q.offers es, o.queued = false ↔ o.ahead = capacity.toNat := by
  induction es generalizing q with
  | nil => exact ⟨h, (List.append_nil _).symm, by simp [TraceQueue.emitAll, offers, lost], nofun⟩
  | cons e es ih =>
    rw [emitAll_cons, offers]
    by_cases hroom : q.waiting.length < capacity.toNat
    · -- the event is queued
      have hemit := h.emit_of_lt e hroom
      have hopen : (q.emit e).1.OpenFor capacity := by
        rw [hemit]
        refine ⟨rfl, ?_⟩
        change (q.waiting ++ [e]).length ≤ capacity.toNat
        rw [List.length_append, List.length_singleton]
        exact hroom
      obtain ⟨hend, hwaiting, hdiscarded, hfull⟩ := ih hopen
      have hw : (q.emit e).1.waiting = q.waiting ++ [e] := by rw [hemit]; rfl
      have hd : (q.emit e).1.discarded = q.discarded := by rw [hemit]
      have hq : (q.emit e).2 = true := by rw [hemit]
      refine ⟨hend, ?_, ?_, ?_⟩
      · rw [hwaiting, hw]
        simp [kept, hq]
      · rw [hdiscarded, hd]
        simp [lost, hq]
      · rintro o (_ | ⟨_, ho⟩)
        · simpa [hq] using Nat.ne_of_lt hroom
        · exact hfull o ho
    · -- the event is lost
      have hlen : q.waiting.length = capacity.toNat :=
        Nat.le_antisymm h.fits (Nat.not_lt.mp hroom)
      have hemit := h.emit_of_full e hlen
      have hw : (q.emit e).1.waiting = q.waiting := by rw [hemit]; rfl
      have hopen : (q.emit e).1.OpenFor capacity :=
        ⟨by rw [hw, hemit]; exact h.channel, by rw [hw]; exact h.fits⟩
      obtain ⟨hend, hwaiting, hdiscarded, hfull⟩ := ih hopen
      have hd : (q.emit e).1.discarded = q.discarded + 1 := by rw [hemit]
      have hq : (q.emit e).2 = false := by rw [hemit]
      refine ⟨hend, ?_, ?_, ?_⟩
      · rw [hwaiting, hw]
        simp [kept, hq]
      · rw [hdiscarded, hd]
        simp [lost, hq, UInt64.ofNat_add, UInt64.add_assoc, UInt64.add_comm]
      · rintro o (_ | ⟨_, ho⟩)
        · simpa [hq] using hlen
        · exact hfull o ho

/-- What the reader takes are the first of the waiting events, and the others wait on. -/
theorem OpenFor.take (h : q.OpenFor capacity) (most : Nat) :
    (q.take most).1.OpenFor capacity ∧
      (q.take most).2 ++ (q.take most).1.waiting = q.waiting ∧
      (q.take most).1.discarded = q.discarded := by
  have htake : q.take most =
      (⟨some ⟨capacity, q.waiting.drop most, true⟩, q.discarded⟩, q.waiting.take most) := by
    unfold TraceQueue.take
    rw [h.channel]
    rfl
  rw [htake]
  refine ⟨⟨rfl, ?_⟩, List.take_append_drop _ _, rfl⟩
  change (q.waiting.drop most).length ≤ capacity.toNat
  rw [List.length_drop]
  exact Nat.le_trans (Nat.sub_le _ _) h.fits

/-! ### Once the reader is gone -/

/-- No reader will take another event: it has left, or there was none. -/
def Gone (q : TraceQueue) : Prop := ∀ c ∈ q.channel, c.waiting = [] ∧ c.readerOpen = false

theorem disabled_gone : disabled.Gone := nofun

theorem close_gone (q : TraceQueue) : q.close.Gone := by
  intro c hc
  obtain ⟨c', -, rfl⟩ := Option.map_eq_some_iff.mp hc
  exact ⟨rfl, rfl⟩

theorem Gone.waiting (h : q.Gone) : q.waiting = [] := by
  unfold TraceQueue.waiting
  split
  · rename_i c hc
    rw [(h c hc).2]
    rfl
  · rfl

/-- An event is lost, and disables the queue; the loss is counted if the queue was enabled. -/
theorem Gone.emit (h : q.Gone) (e : TraceEvent) :
    q.emit e = (⟨none, q.discarded + if q.isEnabled then 1 else 0⟩, false) := by
  rcases q with ⟨_ | c, n⟩
  · simp [TraceQueue.emit, isEnabled]
  · simp [TraceQueue.emit, isEnabled, (h c rfl).2]

theorem Gone.queued (h : q.Gone) (es : List TraceEvent) :
    ∀ o ∈ q.offers es, o.queued = false := by
  induction es generalizing q with
  | nil => exact nofun
  | cons e es ih =>
    rw [offers, h.emit]
    rintro o (_ | ⟨_, ho⟩)
    · rfl
    · exact ih (by exact nofun) o ho

/-- **What a queue without a reader does with offers.**  The first one disables it. -/
theorem Gone.emitAll (h : q.Gone) (es : List TraceEvent) :
    q.emitAll es =
      if es = [] then q else ⟨none, q.discarded + if q.isEnabled then 1 else 0⟩ := by
  induction es generalizing q with
  | nil => rfl
  | cons e es ih =>
    have hnone : (q.emit e).1.Gone := by
      rw [h.emit]
      exact nofun
    rw [emitAll_cons, ih hnone, h.emit]
    simp [isEnabled]

theorem Gone.take (h : q.Gone) (most : Nat) : q.take most = (q, []) := by
  unfold TraceQueue.take
  split
  · rename_i c hc
    rw [(h c hc).2]
    rfl
  · rfl

theorem Gone.close (h : q.Gone) : q.close = q := by
  rcases q with ⟨_ | c, n⟩
  · rfl
  · obtain ⟨hw, hr⟩ := h c rfl
    simp [TraceQueue.close, ← hw, ← hr]

end TraceQueue

end LossRelay
