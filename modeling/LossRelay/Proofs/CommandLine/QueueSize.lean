import LossRelay.Proofs.CommandLine.Overriding
import LossRelay.Proofs.Trace.Batches

/-!
# The size of the trace queue

No trace queue can be opened for more than `TraceQueue.greatestCapacity` events.  The settings of a
relay are checked for a capacity of zero, but not for one that is too great, and the queue is opened
before they are checked.  `Startup.prepare_queue` says what comes of every capacity: a queue that is
ready, a refused configuration for zero, and otherwise an end without a report
(`Startup.queue_too_long_aborts`).
-/

namespace LossRelay

namespace TraceQueue

/-! ### Opening a queue -/

/-- Nothing has happened to the queue yet, and it takes the given number of events without a reader
taking any. -/
structure Ready (q : TraceQueue) (room : Nat) : Prop where
  isEnabled : q.isEnabled = true
  waiting : q.waiting = []
  discarded : q.discarded = 0
  takes : ∀ es : List TraceEvent, es.length ≤ room →
    (q.offer es).1.waiting = es ∧ (q.offer es).1.discarded = 0 ∧
      (q.offer es).2 = List.replicate es.length true

theorem bounded_ready (capacity : UInt64) : (bounded capacity).Ready (max capacity.toNat 1) := by
  refine ⟨rfl, rfl, rfl, fun es hes => ?_⟩
  have hroom : ([] : List TraceEvent).length + max capacity.toNat 1 =
      (if capacity = 0 then 1 else capacity).toNat := by
    rw [toNat_room, List.length_nil, Nat.zero_add]
  have hstart : bounded capacity = serving (if capacity = 0 then 1 else capacity) [] 0 := rfl
  have hnone : es.length - max capacity.toNat 1 = 0 := Nat.sub_eq_zero_of_le hes
  rw [hstart, offer_serving es 0 hroom, hnone, List.take_of_length_le hes]
  refine ⟨List.nil_append _, by simp [serving], ?_⟩
  simp [queuedFirst, hnone, Nat.min_eq_left hes]

theorem open?_eq_none {capacity : UInt64} :
    open? capacity = none ↔ greatestCapacity < capacity := by
  unfold open?
  split <;> simp [*]

theorem open?_eq_some {capacity : UInt64} {queue : TraceQueue} :
    open? capacity = some queue ↔ capacity ≤ greatestCapacity ∧ queue = bounded capacity := by
  unfold open?
  split
  · rename_i hlong
    simp [UInt64.not_le.mpr hlong]
  · rename_i hfits
    simp [UInt64.not_lt.mp hfits, eq_comm]

theorem ready_of_open? {capacity : UInt64} {queue : TraceQueue} (hpos : capacity ≠ 0)
    (h : open? capacity = some queue) : queue.Ready capacity.toNat := by
  obtain ⟨-, rfl⟩ := open?_eq_some.mp h
  have hready := bounded_ready capacity
  rwa [← toNat_room, if_neg hpos] at hready

end TraceQueue

/-! ### The checks of the settings -/

theorem RelaySettings.traceCapacity_ne_zero {limits : RelaySettings}
    (h : limits.validate = .ok ()) : limits.traceCapacity ≠ 0 := by
  unfold validate at h
  split at h
  · cases h
  · split at h
    · cases h
    · rename_i hpos
      exact hpos

/-- The usual limits with a number of trace events of one's own: only zero is refused. -/
theorem RelaySettings.validate_between (listen remote : Endpoint) (capacity : UInt64) :
    { between listen remote with traceCapacity := capacity }.validate =
      if capacity = 0 then .error (.unfit .noTraceCapacity) else .ok () := by
  unfold validate between
  simp

theorem Route.destination_of_found {route : Route} {resolve : Resolver} {found : List Endpoint}
    {remote : Endpoint} (hfound : resolve route.host route.remotePort = .ok found)
    (hremote : found.find? Endpoint.isV4 = some remote) :
    route.destination resolve = .ok remote := by
  unfold destination
  rw [hfound]
  dsimp only
  rw [hremote]

namespace Startup

variable {inv : Invocation} {read : FileReader} {resolve : Resolver} {settings : PolicySettings}
  {route : Route} {found : List Endpoint} {remote : Endpoint}

/-- Once the policy, the route and its host are known, the queue is opened, and then the settings of
the relay are checked. -/
theorem prepare_of_destination (hsettings : inv.policySettings read = .ok settings)
    (hroute : Route.parse inv.route = .ok route)
    (hremote : route.destination resolve = .ok remote) :
    prepare inv read resolve =
      match TraceQueue.open? inv.traceCapacity with
      | none => .error (.queueTooLong inv.traceCapacity)
      | some queue =>
        if inv.traceCapacity = 0 then .error (.relay (.config (.unfit .noTraceCapacity)))
        else .ok ⟨⟨{ RelaySettings.between route.listen remote with
            traceCapacity := inv.traceCapacity }, .fresh settings.policy queue⟩,
          inv.flags.metrics, inv.flags.verbose⟩ := by
  unfold prepare
  rw [hsettings, hroute]
  change (((route.destination resolve).mapError StartupError.route).bind _) = _
  rw [hremote]
  change (match TraceQueue.open? inv.traceCapacity with
    | none => _
    | some queue => _) = _
  cases TraceQueue.open? inv.traceCapacity with
  | none => rfl
  | some queue =>
    dsimp only
    by_cases hzero : inv.traceCapacity = 0
    · have hunfit := RelaySettings.validate_between route.listen remote inv.traceCapacity
      rw [if_pos hzero] at hunfit ⊢
      unfold Relay.onSocket
      rw [hunfit]
      rfl
    · have hfit := RelaySettings.validate_between route.listen remote inv.traceCapacity
      rw [if_neg hzero] at hfit ⊢
      obtain ⟨-, -, -, hsound⟩ := Invocation.policySettings_eq_ok.mp hsettings
      rw [Relay.onSocket_of_validate hfit (PolicySettings.validate_policy hsound)]
      rfl

/-- **What comes of the size of the trace queue.**  For settings that are fit to run the queue can
be opened if and only if it is not for more than the greatest capacity, and then it is ready for as
many events as the settings say.  Once the policy and the route are known, and the host has been
looked up and has an endpoint that can be reached, a start ends without a report if and only if the
capacity is greater than that; a capacity of zero is reported as an unfit configuration, and every
other one gives a relay whose queue is ready for so many events. -/
theorem prepare_queue (limits : RelaySettings) (hlimits : limits.validate = .ok ())
    (hsettings : inv.policySettings read = .ok settings)
    (hroute : Route.parse inv.route = .ok route)
    (hfound : resolve route.host route.remotePort = .ok found)
    (hremote : found.find? Endpoint.isV4 = some remote) :
    (TraceQueue.open? limits.traceCapacity = none ↔
      TraceQueue.greatestCapacity < limits.traceCapacity) ∧
    (∀ queue, TraceQueue.open? limits.traceCapacity = some queue →
      queue.Ready limits.traceCapacity.toNat) ∧
    (prepare inv read resolve = .error (.queueTooLong inv.traceCapacity) ↔
      TraceQueue.greatestCapacity < inv.traceCapacity) ∧
    (prepare inv read resolve = .error (.relay (.config (.unfit .noTraceCapacity))) ↔
      inv.traceCapacity = 0) ∧
    ((∃ s, prepare inv read resolve = .ok s) ↔
      inv.traceCapacity ≠ 0 ∧ inv.traceCapacity ≤ TraceQueue.greatestCapacity) ∧
    ∀ s, prepare inv read resolve = .ok s →
      s.relay.settings.traceCapacity = inv.traceCapacity ∧
      s.relay.ledger.queue.Ready inv.traceCapacity.toNat := by
  refine ⟨TraceQueue.open?_eq_none, fun queue hopen =>
    TraceQueue.ready_of_open? (RelaySettings.traceCapacity_ne_zero hlimits) hopen, ?_⟩
  rw [prepare_of_destination hsettings hroute (Route.destination_of_found hfound hremote)]
  cases hopen : TraceQueue.open? inv.traceCapacity with
  | none =>
    -- the program ends when it opens the queue
    have hlong := TraceQueue.open?_eq_none.mp hopen
    have hpos : inv.traceCapacity ≠ 0 := by
      intro hzero
      rw [hzero] at hlong
      exact absurd hlong (by decide)
    simp [hlong, hpos, UInt64.not_le.mpr hlong]
  | some queue =>
    obtain ⟨hfits, -⟩ := TraceQueue.open?_eq_some.mp hopen
    dsimp only
    by_cases hzero : inv.traceCapacity = 0
    · -- the queue was opened for one event, and then the settings are refused
      rw [if_pos hzero]
      simp [hzero, TraceQueue.greatestCapacity]
    · rw [if_neg hzero]
      have hready := TraceQueue.ready_of_open? hzero hopen
      refine ⟨?_, ?_, ?_, ?_⟩
      · simpa using hfits
      · simpa using hzero
      · exact iff_of_true ⟨_, rfl⟩ ⟨hzero, hfits⟩
      · rintro s ⟨⟩
        exact ⟨rfl, hready⟩

/-- The usual limits, and a start for one event more than a queue can have.  The host is a name with
two endpoints, of which the first cannot be reached. -/
theorem prepare_queue_of_one_too_many :
    let inv : Invocation :=
      ⟨"1:localhost:1", { traceCapacity := some 2305843009213693952 }⟩
    let resolve : Resolver := fun host port =>
      if host = "localhost" then
        .ok [.v6 ⟨[0, 0, 0, 0, 0, 0, 0, 1], rfl⟩ port 0, .v4 .loopback port]
      else .error (.described "Name or service not known")
    prepare inv (fun _ => .error .noSuchFile) resolve =
      .error (.queueTooLong 2305843009213693952) := by
  intro inv resolve
  have hsettings : inv.policySettings (fun _ => .error .noSuchFile) = .ok .reference := rfl
  have hroute : Route.parse "1:localhost:1" = .ok ⟨1, "localhost", 1⟩ := rfl
  have hfound : resolve "localhost" 1 =
      .ok [.v6 ⟨[0, 0, 0, 0, 0, 0, 0, 1], rfl⟩ 1 0, .v4 .loopback 1] := rfl
  have hlimits : (default : RelaySettings).validate = .ok () := rfl
  obtain ⟨-, -, hlong, -⟩ := prepare_queue default hlimits hsettings hroute hfound rfl
  exact hlong.mpr (by decide)

/-- The settings with a capacity that is too great are fit to run, but no queue can be opened for
it, and the command line that asks for it ends the program with the status of an abort and no
report. -/
theorem queue_too_long_aborts :
    let args := ["--trace-capacity", "2305843009213693952", "1:127.0.0.1:1"]
    let resolve : Resolver := fun _ port => .ok [.v4 .loopback port]
    let limits : RelaySettings :=
      { RelaySettings.between (.v4 .unspecified 1) (.v4 .loopback 1) with
        traceCapacity := 2305843009213693952 }
    limits.validate = .ok () ∧ TraceQueue.open? limits.traceCapacity = none ∧
    ∃ e, ofCommandLine args none (fun _ => .error .noSuchFile) resolve = .error e ∧
      e.exitStatus = 101 ∧ e.report = none ∧ ∀ cause, e ≠ .relay (.config cause) := by
  intro args resolve limits
  refine ⟨rfl, rfl, .queueTooLong 2305843009213693952, ?_, rfl, rfl, nofun⟩
  rfl

end Startup

end LossRelay
