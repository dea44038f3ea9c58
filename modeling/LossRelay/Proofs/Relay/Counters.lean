import LossRelay.Policy.Index
import LossRelay.Proofs.Relay.History

/-!
# The counters of a relay

After any history of runs the counters say exactly what happened since the relay was set up, however
the last run ended, and a run that ends in good order returns them.
-/

namespace LossRelay

variable {π : Type} [LossPolicy π]

/-! ### The result of a run -/

theorem Relay.result_run {r : Relay π} {script : List Delivery} {outcomes : List SendOutcome}
    {t : Tally} (h : (r.run script outcomes).result = .ok t) :
    t = (r.run script outcomes).relay.stats := by
  unfold run at h
  dsimp only at h
  generalize ((r.session outcomes).run r.settings script).2.2 = ending at h
  cases ending with
  | error e => cases h
  | ok _ => exact (Except.ok.inj h).symm

theorem Service.mem_serveAll {v : Service π} {ts : List Turn} {e : Episode π}
    (h : e ∈ (v.serveAll ts).1) : ∃ (w : Service π) (t : Turn), e = w.episode t := by
  induction ts generalizing v with
  | nil => cases h
  | cons t ts ih =>
    rcases List.mem_cons.mp h with rfl | h
    · exact ⟨v, t, rfl⟩
    · exact ih h

/-! ### The counters -/

/-- **The counters are exact.**  Let `account` be the exact counts over all runs: datagrams read and
their bytes up to the limit, datagrams longer than the limit, verdicts to drop, attempts by their
answers with the bytes reported, and failed receives.  Then every datagram read was forwarded, was
dropped, or failed to be sent; as long as the counts fit the counters, the counters are the counts;
a socket that never reports more bytes than it was given forwards no more bytes than were received;
and what a run returns are the counters at its end. -/
theorem counters_serveAll {settings : RelaySettings} {policy : π} {queue : TraceQueue}
    {relay : Relay π} (h : Relay.onSocket settings policy queue = .ok relay) (turns : List Turn) :
    let history := relay.start.serveAll turns
    let read := history.1.flatMap Episode.read
    let answers := history.1.flatMap Episode.answers
    let limit := settings.payloadLimit.toNat
    let judged := LossPolicy.decideAll policy (arrivals limit 0 (datagrams read))
    let account := Account.of limit (datagrams read) (judged.1.map (·.verdict)) answers
      (faults read).length
    turns.flatMap (·.deliveries) = read ++ history.2.unread ∧
    account.received = account.forwarded + account.dropped + account.sendFailures ∧
    (account.Fits → history.2.relay.stats.account = account) ∧
    ((∀ a ∈ answers, a.2.bytes a.1.payload.length ≤ a.1.payload.length) →
      account.bytesForwarded ≤ account.bytesReceived) ∧
    ∀ e ∈ history.1, ∀ tally, e.run.result = .ok tally → tally = e.run.relay.stats := by
  obtain ⟨hs, rfl⟩ := Relay.eq_of_onSocket h
  obtain ⟨hread, hpassage⟩ :=
    Service.serveAll_passage (v := Relay.start ⟨settings, .fresh policy queue⟩) hs turns
  intro history read answers limit judged account
  have hlen : (datagrams read).length = (judged.1.map (·.verdict)).length :=
    (Ledger.length_verdicts settings (.fresh policy queue) read).symm
  refine ⟨hread, Account.received_eq _ hlen hpassage.attempts, fun hfits => ?_,
    Account.bytesForwarded_le _ hpassage.attempts, fun e he tally htally => ?_⟩
  · have htally : history.2.relay.ledger.tally = account.addTo .zero := hpassage.tally
    have hstats : history.2.relay.stats.account = history.2.relay.ledger.tally.account := rfl
    rw [hstats, htally]
    exact Account.account_addTo_zero hfits
  · obtain ⟨w, t, rfl⟩ := Service.mem_serveAll he
    exact Relay.result_run htally

/-- Two runs, the second of which gives up: a failed send, a drop of a datagram that was too long,
a short send of one that was cut, and three failed receives; one datagram stays unread. -/
theorem counters_of_two_runs :
    let settings : RelaySettings :=
      { RelaySettings.between default default with payloadLimit := 4, errorLimit := 2 }
    let policy : IndexPolicy := ⟨⟨10, .ofList [1], .empty⟩⟩
    let turns : List Turn :=
      [{ deliveries := [.datagram [1, 2, 3] .zero default, .datagram [9, 9, 9, 9, 9] .zero default,
          .fault .timedOut], outcomes := [.fault .connectionRefused, .counted 2] },
        { deliveries := [.datagram [4, 5, 6, 7, 8] .zero default, .fault .timedOut, .fault .timedOut,
          .datagram [0] .zero default] }]
    ∃ relay, Relay.onSocket settings policy .disabled = .ok relay ∧
      (relay.start.serveAll turns).2.relay.stats.account =
        { received := 3, bytesReceived := 11, truncated := 2, dropped := 1, forwarded := 1,
          bytesForwarded := 2, sendFailures := 1, receiveFailures := 3 } := by
  intro settings policy turns
  have h : Relay.onSocket settings policy .disabled = .ok ⟨settings, .fresh policy .disabled⟩ := rfl
  refine ⟨_, h, ?_⟩
  obtain ⟨-, -, hexact, -, -⟩ := counters_serveAll h turns
  rw [hexact ⟨by decide, by decide, by decide, by decide, by decide, by decide, by decide,
    by decide⟩]
  decide

end LossRelay
