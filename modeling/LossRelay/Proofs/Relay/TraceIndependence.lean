import LossRelay.Policy.Index
import LossRelay.Proofs.Relay.Likeness

/-!
# The trace never steers

Nothing that a relay does depends on its trace queue: whether there is one, how long it is, what its
reader takes from it and whether the reader leaves.  Books that differ only in the queue and in the
events that are pending stay so through every entry (`Part.exceptTrace_closed`).
-/

namespace LossRelay

variable {π : Type}

def Tally.withoutTrace (t : Tally) : Tally := { t with traceDiscarded := 0 }

/-- Two turns in which the same comes to the socket; the reader of the trace may act differently. -/
structure Turn.SameTraffic (t u : Turn) : Prop where
  deliveries : t.deliveries = u.deliveries
  outcomes : t.outcomes = u.outcomes

/-- Everything but the trace: not the events that are pending, nor the queue, nor its losses. -/
def Part.exceptTrace : Part := ⟨Tally.withoutTrace, id, fun _ => true, false⟩

/-- **No entry in the books reads the trace.** -/
theorem Part.exceptTrace_closed : exceptTrace.Closed where
  received _ := rfl
  arrived _ _ _ _ := rfl
  answered _ _ o := by cases o <;> rfl
  failed _ := rfl
  discarded _ _ := rfl
  untraced _ _ _ := rfl
  record _ _ := rfl

theorem Turn.SameTraffic.alike {t u : Turn} (h : t.SameTraffic u) :
    Turn.Alike (Ledger.AlikeIn (π := π) .exceptTrace) Eq t u where
  deliveries := h.deliveries
  outcomes ho := by rw [ho, h.outcomes]
  readings hl := ⟨hl.policy, hl.tally, hl.metrics, hl.log, nofun⟩

theorem Relay.onSocket_withQueue [LossPolicy π] {settings : RelaySettings} {policy : π}
    {queue : TraceQueue} {relay : Relay π} (h : Relay.onSocket settings policy queue = .ok relay)
    (queue' : TraceQueue) :
    Relay.onSocket settings policy queue' = .ok ⟨settings, .fresh policy queue'⟩ := by
  unfold onSocket at h ⊢
  split at h
  · cases h
  · split at h
    · cases h
    · rfl

/-- **The trace never steers.**  Set up two relays with the same settings and policy, but with any
two trace queues, and let the same deliveries and answers come to both, while the readers of the
two traces take and leave as they like.  Then any two runs that correspond make the same attempts in
the same order, return the same and count the same but for lost trace events, and leave the same
policy, unread deliveries, unused answers, metrics and log. -/
theorem Relay.run_ignores_trace [LossPolicy π] {settings : RelaySettings} {policy : π}
    {queue : TraceQueue} {relay : Relay π} (h : Relay.onSocket settings policy queue = .ok relay)
    (queue' : TraceQueue) {turns turns' : List Turn} {turn turn' : Turn}
    (hturns : List.Forall₂ Turn.SameTraffic turns turns') (hturn : turn.SameTraffic turn') :
    ∃ relay', Relay.onSocket settings policy queue' = .ok relay' ∧
      let run := ((relay.start.serveAll turns).2.episode turn).run
      let run' := ((relay'.start.serveAll turns').2.episode turn').run
      run.attempts = run'.attempts ∧
      run.result.map Tally.withoutTrace = run'.result.map Tally.withoutTrace ∧
      run.relay.stats.withoutTrace = run'.relay.stats.withoutTrace ∧
      run.relay.ledger.policy = run'.relay.ledger.policy ∧
      run.unread = run'.unread ∧
      run.outcomes = run'.outcomes ∧
      run.relay.ledger.metrics = run'.relay.ledger.metrics ∧
      run.relay.ledger.log = run'.relay.ledger.log := by
  obtain ⟨hvalid, rfl⟩ := eq_of_onSocket h
  refine ⟨_, onSocket_withQueue h queue', ?_⟩
  have hlike : Likeness settings (Ledger.AlikeIn (π := π) .exceptTrace) Eq :=
    Part.exceptTrace_closed.likeness_eq
  have hstart : Service.Alike settings (Ledger.AlikeIn .exceptTrace) Eq
      (Relay.start ⟨settings, .fresh policy queue⟩)
      (Relay.start ⟨settings, .fresh policy queue'⟩) :=
    ⟨rfl, rfl, ⟨rfl, rfl, rfl, rfl, nofun⟩, rfl, rfl⟩
  have hbefore := hstart.serveAll hlike hvalid (hturns.imp fun _ _ ht => ht.alike)
  obtain ⟨-, hrun⟩ := hbefore.episode hlike hvalid hturn.alike
  have hstats := hrun.ledger.stats Part.exceptTrace_closed
  have hlog := hrun.ledger.log
  simp only [Part.exceptTrace, List.filter_true] at hlog
  exact ⟨hrun.attempts, hrun.result _ hstats, hstats, hrun.ledger.policy, hrun.unread,
    hrun.outcomes, hrun.ledger.metrics, hlog⟩

/-- A queue for one event whose reader leaves after the first run, against no queue at all: the
second run has lost events that the first relay counts, and gives up all the same. -/
theorem Relay.run_ignores_lost_trace :
    let settings : RelaySettings :=
      { RelaySettings.between default default with payloadLimit := 4, errorLimit := 2 }
    let policy : IndexPolicy := ⟨⟨10, .ofList [1], .empty⟩⟩
    let first : Turn :=
      { deliveries := [.datagram [1, 2, 3] .zero default, .datagram [9] .zero default],
        outcomes := [.fault .connectionRefused] }
    let second : Turn :=
      { deliveries := [.datagram [4, 5, 6, 7, 8] .zero default, .fault .timedOut, .fault .timedOut] }
    ∃ relay relay',
      onSocket settings policy (.bounded 1) = .ok relay ∧
      onSocket settings policy .disabled = .ok relay' ∧
      let history := (relay.start.serveAll [{ first with readings := [.close] }]).2
      let history' := (relay'.start.serveAll [first]).2
      (history.episode second).run.relay.stats.traceDiscarded = 2 ∧
      (history.episode second).run.attempts = (history'.episode second).run.attempts ∧
      (history.episode second).run.result.map Tally.withoutTrace =
        (history'.episode second).run.result.map Tally.withoutTrace := by
  intro settings policy first second
  have h : onSocket settings policy (.bounded 1) =
    .ok ⟨settings, .fresh policy (.bounded 1)⟩ := rfl
  have hfirst : List.Forall₂ Turn.SameTraffic [{ first with readings := [.close] }] [first] :=
    .cons ⟨rfl, rfl⟩ .nil
  have hsecond : second.SameTraffic second := ⟨rfl, rfl⟩
  obtain ⟨relay', h', hattempts, hresult, -⟩ := run_ignores_trace h .disabled hfirst hsecond
  exact ⟨_, relay', h, h', by decide, hattempts, hresult⟩

end LossRelay
