import LossRelay.Policy.Block
import LossRelay.Proofs.Relay.GivingUp
import LossRelay.Proofs.Relay.Likeness

/-!
# Failed receives leave no mark

A failed receive that does not end a run is counted, measured and logged, and that is all: the run
goes on as if the failure had not been in its script.  Handling a script and handling the datagrams
of the script alone lead to sessions that are alike in everything but what is about failed receives
(`Session.Alike.handleAll_datagramsOnly`).
-/

namespace LossRelay

variable {π : Type}

/-! ### What does not depend on failed receives -/

def Tally.withoutFailures (t : Tally) : Tally := { t with receiveFailures := 0 }

def Metrics.withoutFailures (m : Metrics) : Metrics := { m with receiveErrors := none }

def Part.exceptFailures : Part :=
  ⟨Tally.withoutFailures, Metrics.withoutFailures, (·.warning?.isNone), true⟩

/-- **No entry in the books reads how many receives have failed.** -/
theorem Part.exceptFailures_closed : exceptFailures.Closed where
  received _ := rfl
  arrived _ _ _ _ := rfl
  answered _ _ o := by cases o <;> rfl
  failed _ := rfl
  discarded _ _ := rfl
  untraced := nofun
  record _ x := by
    cases x with
    | failed op => cases op <;> rfl
    | _ => rfl

theorem Ledger.AlikeIn.failure_left {l m : Ledger π} (h : AlikeIn .exceptFailures l m)
    (streak : UInt32) (cause : IoFault) :
    AlikeIn .exceptFailures ((l.failed .receive).note (.receiveFailed streak cause)) m where
  policy := h.policy
  tally := h.tally
  metrics := h.metrics
  log := by
    rw [← h.log]
    simp [Ledger.note, failed, Part.exceptFailures, LogEntry.warning?]
  trace := h.trace

/-! ### Handling a script -/

/-- The script without its failures. -/
def datagramsOnly (script : List Delivery) : List Delivery := script.filter (!·.isFault)

theorem not_hasStreak_datagramsOnly {m : Nat} (hm : 0 < m) (script : List Delivery) :
    ¬ HasStreak m (datagramsOnly script) := by
  apply not_hasStreak_of_no_fault hm
  intro d hd
  simpa using (List.mem_filter.mp hd).2

theorem faults_datagramsOnly (script : List Delivery) : faults (datagramsOnly script) = [] := by
  induction script with
  | nil => rfl
  | cons d script ih =>
    cases d with
    | datagram payload time source => exact ih
    | fault cause => exact ih

/-- **Failed receives leave no mark.** -/
theorem Session.Alike.handleAll_datagramsOnly [LossPolicy π] {settings : RelaySettings}
    {earlier : List Attempt} {s t : Session π}
    (h : Alike settings (Ledger.AlikeIn .exceptFailures) Eq earlier s t)
    (script : List Delivery) :
    Alike settings (Ledger.AlikeIn .exceptFailures) Eq earlier (s.handleAll settings script)
      (t.handleAll settings (datagramsOnly script)) := by
  induction script generalizing s t with
  | nil => exact h
  | cons d script ih =>
    cases d with
    | datagram payload time source =>
      exact ih (h.receive Part.exceptFailures_closed.likeness_eq payload time source)
    | fault cause =>
      exact ih ⟨h.sized, h.sized', h.ledger.failure_left _ cause, h.outcomes, h.attempts⟩

/-! ### One run -/

/-- **Failed receives leave no mark.**  Take a relay in any state and a script without a streak that
ends a run.  The run over the script and the run over its datagrams alone make the same attempts,
leave the same policy, the same trace and the same answers, log the same but for the warnings of
failed receives, and measure the same but for those.  Both come to the end of their script and
return their counters, which agree but for that of failed receives; and this one differs by the
number of failures in the script. -/
theorem Relay.run_without_failures [LossPolicy π] {r : Relay π} (h : r.settings.validate = .ok ())
    {script : List Delivery} (hcalm : ¬ HasStreak r.settings.errorLimit.toNat script)
    (outcomes : List SendOutcome) :
    let full := r.run script outcomes
    let clean := r.run (datagramsOnly script) outcomes
    full.attempts = clean.attempts ∧
    full.relay.ledger.policy = clean.relay.ledger.policy ∧
    full.relay.ledger.pending = clean.relay.ledger.pending ∧
    full.relay.ledger.queue = clean.relay.ledger.queue ∧
    full.outcomes = clean.outcomes ∧
    full.relay.ledger.log.filter (·.warning?.isNone) =
      clean.relay.ledger.log.filter (·.warning?.isNone) ∧
    full.relay.ledger.metrics.withoutFailures = clean.relay.ledger.metrics.withoutFailures ∧
    full.unread = [] ∧ clean.unread = [] ∧
    full.result = .ok full.relay.stats ∧ clean.result = .ok clean.relay.stats ∧
    full.relay.stats.withoutFailures = clean.relay.stats.withoutFailures ∧
    full.relay.stats.receiveFailures =
      clean.relay.stats.receiveFailures + .ofNat (faults script).length := by
  have hcalm' := not_hasStreak_datagramsOnly (RelaySettings.limits_of_validate h).2 script
  have hsized := session_sized h outcomes
  have hstart : Session.Alike r.settings (Ledger.AlikeIn .exceptFailures) Eq []
      (r.session outcomes) (r.session outcomes) := ⟨hsized, hsized, .refl .., rfl, rfl⟩
  have hend := hstart.handleAll_datagramsOnly script
  have hstats := hend.ledger.stats Part.exceptFailures_closed
  -- the counts of failed receives come from the accounts of both runs
  obtain ⟨_, hfull⟩ := Session.handleAll_carried hsized script
  obtain ⟨_, hclean⟩ := Session.handleAll_carried hsized (datagramsOnly script)
  have hcount := hfull.passage.receiveFailures
  have hcount' := hclean.passage.receiveFailures
  rw [faults_datagramsOnly] at hcount'
  obtain ⟨hpending, hqueue⟩ := hend.ledger.trace rfl
  intro full clean
  have hfull : full = _ := run_of_calm h hcalm outcomes
  have hclean : clean = _ := run_of_calm h hcalm' outcomes
  rw [hfull, hclean]
  refine ⟨hend.attempts.symm, hend.ledger.policy, hpending, hqueue, hend.outcomes, hend.ledger.log,
    hend.ledger.metrics, rfl, rfl, rfl, rfl, hstats, ?_⟩
  refine hcount.trans (congrArg (· + _) ?_)
  exact (hcount'.trans (UInt64.add_zero _)).symm

/-- A relay with the block rule that has received seven datagrams and has an event pending: five
failures around and between two datagrams, of which the second opens a block, but never three
failures in a row. -/
theorem Relay.run_without_five_failures :
    let settings : RelaySettings := { RelaySettings.between default default with errorLimit := 3 }
    let policy : BlockPolicy := ⟨⟨500, 6, 0⟩, ⟨6, 0, none, some .zero, 7⟩⟩
    let relay : Relay BlockPolicy :=
      { settings, ledger := { Ledger.fresh policy (.bounded 2) with
          tally := { received := 7, forwarded := 7 }, pending := [.symbolDropped 0 1] } }
    let script : List Delivery :=
      [.fault .timedOut, .fault .timedOut, .datagram [1, 2] (.ofMillis 10) default, .fault .timedOut,
        .datagram [3] (.ofMillis 511) default, .fault .timedOut, .fault .timedOut]
    relay.settings.validate = .ok () ∧
    ¬ HasStreak relay.settings.errorLimit.toNat script ∧
    (relay.run script []).attempts = (relay.run (datagramsOnly script) []).attempts ∧
    (relay.run script []).relay.ledger.queue =
      (relay.run (datagramsOnly script) []).relay.ledger.queue ∧
    (relay.run script []).relay.stats.receiveFailures =
      (relay.run (datagramsOnly script) []).relay.stats.receiveFailures + 5 := by
  intro settings policy relay script
  have hvalid : relay.settings.validate = .ok () := rfl
  have hcalm : ¬ HasStreak relay.settings.errorLimit.toNat script := by decide
  obtain ⟨hattempts, -, -, hqueue, -, -, -, -, -, -, -, -, hcount⟩ :=
    run_without_failures hvalid hcalm []
  exact ⟨hvalid, hcalm, hattempts, hqueue, hcount⟩

end LossRelay
