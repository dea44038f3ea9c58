import LossRelay.Policy.Index
import LossRelay.Proofs.Relay.Likeness

/-!
# Answers to sends never decide

What the socket answers to a send is counted, measured and logged, and has no other effect: not on
the numbering of datagrams, nor on verdicts, failed receives or the trace.  Books that differ only
in what they say of answers stay so through every entry, with any answers
(`Part.exceptAnswers_blind`).
-/

namespace LossRelay

variable {π : Type}

/-! ### What does not depend on answers -/

/-- The counters without the answers: the sends that were tried are in one counter. -/
def Tally.withoutAnswers (t : Tally) : Tally :=
  { t with forwarded := t.forwarded + t.sendFailures, sendFailures := 0, bytesForwarded := 0 }

def Metrics.withoutAnswers (m : Metrics) : Metrics :=
  { m with datagramsForwarded := none, bytesForwarded := none, sendErrors := none }

/-- A log entry about the answer to a send. -/
def LogEntry.isAnswer : LogEntry → Bool
  | .shortSend .. | .sendFailed .. => true
  | _ => false

namespace Metrics

theorem withoutAnswers_record (m : Metrics) (x : Measurement) :
    (m.record x).withoutAnswers = (m.withoutAnswers.record x).withoutAnswers := by
  cases x with
  | failed op => cases op <;> rfl
  | _ => rfl

theorem withoutAnswers_answer (m : Metrics) (size : UInt64) (o : SendOutcome) :
    (m.record (Ledger.answerMeasurement size o)).withoutAnswers = m.withoutAnswers := by
  cases o <;> rfl

end Metrics

theorem LogEntry.filter_answerEntries (remote : Endpoint) (size : UInt64) (o : SendOutcome) :
    (Ledger.answerEntries remote size o).filter (!·.isAnswer) = [] := by
  apply List.filter_eq_nil_iff.mpr
  intro entry hentry
  obtain ⟨_, rfl⟩ | ⟨_, rfl⟩ := Ledger.of_mem_answerEntries hentry <;> exact Bool.false_ne_true

/-- Two turns in which the same is delivered and the reader of the trace does the same; the socket
may answer differently. -/
structure Turn.SameDeliveries (t u : Turn) : Prop where
  deliveries : t.deliveries = u.deliveries
  readings : t.readings = u.readings

/-! ### Books -/

/-- Whatever the answer, one more send was tried. -/
theorem Tally.withoutAnswers_answered (t : Tally) (size : UInt64) (o : SendOutcome) :
    (t.answered size o).withoutAnswers =
      { t.withoutAnswers with forwarded := t.withoutAnswers.forwarded + 1 } := by
  cases o <;> simp only [answered, withoutAnswers, UInt64.add_assoc, UInt64.add_comm 1]

namespace Part

/-- Everything but what is about the answers to sends. -/
def exceptAnswers : Part := ⟨Tally.withoutAnswers, Metrics.withoutAnswers, (!·.isAnswer), true⟩

theorem exceptAnswers_closed : exceptAnswers.Closed where
  received _ := rfl
  arrived t _ _ _ := by simp [exceptAnswers, Tally.withoutAnswers, Tally.arrived]
  answered t size o := by
    refine (Tally.withoutAnswers_answered t size o).trans ?_
    refine Eq.trans ?_ (Tally.withoutAnswers_answered t.withoutAnswers size o).symm
    simp only [Tally.withoutAnswers, UInt64.add_zero]
  failed t := by simp [exceptAnswers, Tally.withoutAnswers, Tally.receiveFailed]
  discarded t _ := by simp [exceptAnswers, Tally.withoutAnswers]
  untraced := nofun
  record := Metrics.withoutAnswers_record

/-- **Nothing but what is about answers tells two answers apart.** -/
theorem exceptAnswers_blind (o o' : SendOutcome) : exceptAnswers.Blind o o' where
  tally t size :=
    (Tally.withoutAnswers_answered t size o).trans (Tally.withoutAnswers_answered t size o').symm
  metrics m size :=
    (m.withoutAnswers_answer size o).trans (m.withoutAnswers_answer size o').symm
  log remote size := (LogEntry.filter_answerEntries remote size o).trans
    (LogEntry.filter_answerEntries remote size o').symm

end Part

theorem Turn.SameDeliveries.alike {t u : Turn} (h : t.SameDeliveries u) :
    Turn.Alike (Ledger.AlikeIn (π := π) .exceptAnswers) (fun _ _ => True) t u where
  deliveries := h.deliveries
  outcomes _ := trivial
  readings hl := by
    refine ⟨hl.policy, hl.tally, hl.metrics, hl.log, fun htrace => ?_⟩
    obtain ⟨hpending, hqueue⟩ := hl.trace htrace
    rw [hqueue, h.readings]
    exact ⟨hpending, rfl⟩

/-! ### Any run in the history of a relay -/

/-- **Answers to sends never decide.**  Set up a relay twice, let the same deliveries come to both
and let both readers of the trace do the same, while the two sockets answer to sends as they like.
Then any two runs that correspond give the same verdicts and report the same events, make the same
attempts with the same bytes, leave the same policy, trace queue and unread deliveries, let the
reader take the same events, and end in the same way.  The counters agree but for the bytes
forwarded and for how the sends that were tried divide into forwarded ones and failures, and metrics
and log agree in all that is not about answers. -/
theorem Relay.run_ignores_answers [LossPolicy π] {settings : RelaySettings} {policy : π}
    {queue : TraceQueue} {relay : Relay π} (h : Relay.onSocket settings policy queue = .ok relay)
    {turns turns' : List Turn} {turn turn' : Turn}
    (hturns : List.Forall₂ Turn.SameDeliveries turns turns') (hturn : turn.SameDeliveries turn') :
    let before := (relay.start.serveAll turns).2
    let before' := (relay.start.serveAll turns').2
    let episode := before.episode turn
    let episode' := before'.episode turn'
    let books := episode.run.relay.ledger
    let books' := episode'.run.relay.ledger
    before.relay.ledger.verdicts settings episode.read =
      before'.relay.ledger.verdicts settings episode'.read ∧
    before.relay.ledger.events settings episode.read =
      before'.relay.ledger.events settings episode'.read ∧
    episode.run.attempts = episode'.run.attempts ∧
    books.policy = books'.policy ∧
    books.pending = books'.pending ∧
    books.queue = books'.queue ∧
    episode.taken = episode'.taken ∧
    episode.run.unread = episode'.run.unread ∧
    episode.run.result.map Tally.withoutAnswers = episode'.run.result.map Tally.withoutAnswers ∧
    episode.run.relay.stats.withoutAnswers = episode'.run.relay.stats.withoutAnswers ∧
    books.metrics.withoutAnswers = books'.metrics.withoutAnswers ∧
    books.log.filter (!·.isAnswer) = books'.log.filter (!·.isAnswer) := by
  obtain ⟨hvalid, rfl⟩ := eq_of_onSocket h
  intro before before' episode episode' books books'
  have hlike : Likeness settings (Ledger.AlikeIn (π := π) .exceptAnswers) fun _ _ => True :=
    Part.exceptAnswers_closed.likeness (fun _ => Part.exceptAnswers_blind _ _) fun _ => trivial
  have hstart : Service.Alike settings (Ledger.AlikeIn .exceptAnswers) (fun _ _ => True)
      (Relay.start ⟨settings, .fresh policy queue⟩)
      (Relay.start ⟨settings, .fresh policy queue⟩) :=
    ⟨rfl, rfl, .refl .., rfl, trivial⟩
  have hbefore := hstart.serveAll hlike hvalid (hturns.imp fun _ _ ht => ht.alike)
  obtain ⟨hscript, hrun⟩ := hbefore.episode hlike hvalid hturn.alike
  have hread : episode.read = episode'.read := by
    unfold Episode.read
    rw [hscript, hrun.unread]
  have hdecisions : before.relay.ledger.decisions settings episode.read =
      before'.relay.ledger.decisions settings episode'.read := by
    unfold Ledger.decisions
    rw [hread, hbefore.ledger.policy, hbefore.ledger.received Part.exceptAnswers_closed]
  obtain ⟨hpending, hqueue⟩ := hrun.ledger.trace rfl
  have htaken : (episode.run.relay.ledger.queue.reactAll turn.readings).2 =
      (episode'.run.relay.ledger.queue.reactAll turn'.readings).2 := by
    rw [hqueue, hturn.readings]
  have hstats := hrun.ledger.stats Part.exceptAnswers_closed
  refine ⟨?_, ?_, hrun.attempts, hrun.ledger.policy, hpending, hqueue, htaken, hrun.unread,
    hrun.result _ hstats, hstats, hrun.ledger.metrics, hrun.ledger.log⟩
  · unfold Ledger.verdicts
    rw [hdecisions]
  · unfold Ledger.events
    rw [hdecisions]

/-- A relay whose first send fails and whose second is short, against one that sends everything: in
the next run the third datagram is dropped in both, and both give up. -/
theorem Relay.run_ignores_failed_sends :
    let settings : RelaySettings :=
      { RelaySettings.between default default with payloadLimit := 4, errorLimit := 2 }
    let policy : IndexPolicy := ⟨⟨10, .ofList [2], .empty⟩⟩
    let first : Turn :=
      { deliveries := [.datagram [1, 2, 3] .zero default, .datagram [9] .zero default], readings := [.take 1] }
    let second : Turn :=
      { deliveries := [.datagram [4, 5, 6, 7, 8] .zero default, .fault .timedOut, .fault .timedOut] }
    let answers : List SendOutcome := [.fault .connectionRefused, .counted 0]
    ∃ relay, onSocket settings policy (.bounded 1) = .ok relay ∧
      let history := (relay.start.serveAll [{ first with outcomes := answers }]).2
      let history' := (relay.start.serveAll [first]).2
      (history.episode second).run.relay.stats.forwarded = 1 ∧
      (history'.episode second).run.relay.stats.forwarded = 2 ∧
      (history.episode second).run.result.map Tally.withoutAnswers =
        (history'.episode second).run.result.map Tally.withoutAnswers ∧
      (history.episode second).run.relay.stats.withoutAnswers =
        (history'.episode second).run.relay.stats.withoutAnswers := by
  intro settings policy first second answers
  have h : onSocket settings policy (.bounded 1) =
    .ok ⟨settings, .fresh policy (.bounded 1)⟩ := rfl
  have hfirst : List.Forall₂ Turn.SameDeliveries [{ first with outcomes := answers }] [first] :=
    .cons ⟨rfl, rfl⟩ .nil
  have hsecond : second.SameDeliveries second := ⟨rfl, rfl⟩
  obtain ⟨-, -, -, -, -, -, -, -, hresult, hstats, -⟩ := run_ignores_answers h hfirst hsecond
  exact ⟨_, h, by decide, by decide, hresult, hstats⟩

end LossRelay
