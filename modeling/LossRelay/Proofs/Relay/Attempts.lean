import LossRelay.Policy.Index
import LossRelay.Proofs.Relay.History

/-!
# What a relay tries to send

Over any history of runs the attempts to send are what the policy lets through of the datagrams
read, each with its own bytes.  Failed receives, failed sends and datagrams that were cut leave no
trace in the numbering.
-/

namespace LossRelay.Relay

variable {π : Type} [LossPolicy π]

omit [LossPolicy π] in
theorem flatMap_attempts (episodes : List (Episode π)) :
    episodes.flatMap (·.run.attempts) = (episodes.flatMap Episode.answers).map Prod.fst := by
  rw [List.map_flatMap]
  exact List.flatMap_congr fun e _ => (map_fst_answered e.outcomes e.run.attempts).symm

/-- **The attempts over all runs.**  The datagrams read are numbered from zero on through all runs
and judged once each, in order, by their number, their time and their length up to the limit.
Every one with the verdict to forward is tried once, with its own first bytes up to the limit, and
sent to the remote endpoint of the settings; no other attempt is made. -/
theorem attempts_serveAll {settings : RelaySettings} {policy : π} {queue : TraceQueue}
    {relay : Relay π} (h : onSocket settings policy queue = .ok relay) (turns : List Turn) :
    let history := relay.start.serveAll turns
    let read := history.1.flatMap Episode.read
    let limit := settings.payloadLimit.toNat
    let judged := LossPolicy.decideAll policy (arrivals limit 0 (datagrams read))
    turns.flatMap (·.deliveries) = read ++ history.2.unread ∧
    history.2.relay.ledger.policy = judged.2 ∧
    history.1.flatMap (·.run.attempts) =
      (passed limit (datagrams read) (judged.1.map (·.verdict))).map
        (Attempt.mk settings.remote) := by
  obtain ⟨hs, rfl⟩ := eq_of_onSocket h
  obtain ⟨hread, hpassage⟩ :=
    Service.serveAll_passage (v := Relay.start ⟨settings, .fresh policy queue⟩) hs turns
  refine ⟨hread, hpassage.policy, ?_⟩
  rw [flatMap_attempts]
  exact hpassage.attempts

/-- Two runs: the second datagram is dropped, the first send fails, and the third datagram, which
comes after a failed receive and a restart, is cut at four bytes. -/
theorem attempts_of_two_runs :
    let settings : RelaySettings := { RelaySettings.between default default with payloadLimit := 4 }
    let policy : IndexPolicy := ⟨⟨10, .ofList [1], .empty⟩⟩
    let turns : List Turn :=
      [{ deliveries := [.datagram [1, 2, 3] .zero default, .datagram [9, 9, 9, 9, 9] .zero default,
          .fault .timedOut], outcomes := [.fault .connectionRefused] },
        { deliveries := [.datagram [4, 5, 6, 7, 8] .zero default] }]
    ∃ relay, onSocket settings policy .disabled = .ok relay ∧
      (relay.start.serveAll turns).1.flatMap (·.run.attempts) =
        [⟨settings.remote, [1, 2, 3]⟩, ⟨settings.remote, [4, 5, 6, 7]⟩] := by
  intro settings policy turns
  have h : onSocket settings policy .disabled = .ok ⟨settings, .fresh policy .disabled⟩ := rfl
  refine ⟨_, h, ?_⟩
  rw [(attempts_serveAll h turns).2.2]
  decide

end LossRelay.Relay
