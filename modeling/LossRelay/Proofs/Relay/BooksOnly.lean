import LossRelay.Policy.Index
import LossRelay.Proofs.Relay.GivingUp

/-!
# Books without a socket

The books of a relay know nothing of sockets, buffers or bytes.  `Ledger.enterDatagram` keeps them for
one datagram of a given length by their own operations, as if its send were reported in full.  The
loop of a relay works on payloads in a buffer that it uses again, with one byte to spare, and logs
where each datagram came from, at a level of its own.  On a script of datagrams, and with a socket
that reports every send in full, its books are those kept without any of this, but for these entries
of the log (`Session.handleAll_ledger`).
-/

namespace LossRelay

/-! ### Sends that are reported in full -/

namespace SendOutcome

/-- The answer to the send of so many bytes says that all of them were sent. -/
def IsFull (length : Nat) (o : SendOutcome) : Prop := o.isFault = false ∧ o.bytes length = length

instance (length : Nat) (o : SendOutcome) : Decidable (o.IsFull length) :=
  inferInstanceAs (Decidable (_ ∧ _))

end SendOutcome

theorem Ledger.answer_of_isFull {π : Type} (l : Ledger π) (remote : Endpoint) {length : Nat}
    {o : SendOutcome} (h : o.IsFull length) :
    l.answer remote (.ofNat length) o = l.forwarded (.ofNat length) := by
  obtain ⟨hok, hbytes⟩ := h
  cases o with
  | whole => rfl
  | counted bytes =>
    have hsize : bytes = .ofNat length := by
      rw [← hbytes]
      exact UInt64.ofNat_toNat.symm
    unfold answer
    simp [hsize]
  | fault cause => cases hok

/-! ### Datagrams in the books -/

def Datagram.delivery (d : Datagram) : Delivery := .datagram d.payload d.time d.source

/-- The entry that the loop makes when a datagram arrives.  It shows no more than one byte beyond the
payload limit, which is all that a receive reports. -/
def Datagram.arrivalEntry (limit : Nat) (d : Datagram) : LogEntry :=
  .received (.ofNat (min d.payload.length (limit + 1))) d.source

theorem Datagram.message_arrivalEntry {limit : Nat} (h : limit + 1 < 2 ^ 64) (d : Datagram) :
    (d.arrivalEntry limit).message =
      toString (min d.payload.length (limit + 1)) ++ " bytes from " ++ d.source.text := by
  have hsize : (UInt64.ofNat (min d.payload.length (limit + 1))).toNat =
      min d.payload.length (limit + 1) :=
    UInt64.toNat_ofNat_of_lt' (Nat.lt_of_le_of_lt (Nat.min_le_right ..) h)
  unfold arrivalEntry LogEntry.message counterText
  dsimp only
  rw [hsize, Numeral.text_eq]

namespace Ledger

variable {π : Type} [LossPolicy π] (limit : UInt64) (l : Ledger π)

/-- The books after a datagram of the given length: it is entered as too long if it is, judged by its
length up to the limit, entered as forwarded if it passes, and its events are flushed. -/
def enterDatagram (length : Nat) (time : Span) : Ledger π :=
  let size := UInt64.ofNat (min length limit.toNat)
  let (l, verdict) := (if limit.toNat < length then l.oversize limit else l).judge size time
  match verdict with
  | .forward => (l.forwarded size).flush
  | .drop => l.flush

/-- The books after datagrams in order, of which only the length and the time are known. -/
def enterDatagrams (arrived : List (Nat × Span)) : Ledger π :=
  arrived.foldl (fun l a => l.enterDatagram limit a.1 a.2) l

/-- What is entered of a datagram is its intake, its send if it passes, and a flush. -/
theorem enterDatagram_eq (length : Nat) (time : Span) :
    l.enterDatagram limit length time =
      match (l.intakeDecision limit length time).verdict with
      | .forward =>
        ((l.intake limit length time).1.forwarded (.ofNat (min length limit.toNat))).flush
      | .drop => (l.intake limit length time).1.flush := by
  rw [← intake_verdict]
  rfl

/-- The books without the entries of the lowest level. -/
def quiet (l : Ledger π) : Ledger π := { l with log := l.log.filter (·.level ≠ .trace) }

/-- The entries of the lowest level. -/
def arrivalLog (l : Ledger π) : List LogEntry := l.log.filter (·.level = .trace)

omit [LossPolicy π] in
theorem quiet_stats : l.quiet.stats = l.stats := rfl

omit [LossPolicy π] in
theorem quiet_note_arrivalEntry (d : Datagram) :
    (l.note (d.arrivalEntry limit.toNat)).quiet = l.quiet := by
  simp [quiet, note, Datagram.arrivalEntry, LogEntry.level]

omit [LossPolicy π] in
theorem arrivalLog_note_arrivalEntry (d : Datagram) :
    (l.note (d.arrivalEntry limit.toNat)).arrivalLog =
      l.arrivalLog ++ [d.arrivalEntry limit.toNat] := by
  simp [arrivalLog, note, Datagram.arrivalEntry, LogEntry.level]

theorem quiet_judge (size : UInt64) (time : Span) :
    (l.judge size time).1.quiet = (l.quiet.judge size time).1 := by
  unfold judge
  dsimp only
  have hdecision : LossPolicy.decide l.quiet.policy ⟨l.quiet.tally.received, time, size⟩ =
      LossPolicy.decide l.policy ⟨l.tally.received, time, size⟩ := rfl
  rw [hdecision]
  cases (LossPolicy.decide l.policy ⟨l.tally.received, time, size⟩).verdict with
  | forward => rfl
  | drop => simp [quiet, countDrop, adopt, countArrival, LogEntry.level]

theorem quiet_intake (length : Nat) (time : Span) :
    (l.intake limit length time).1.quiet = (l.quiet.intake limit length time).1 := by
  unfold intake
  rw [quiet_judge]
  split
  · have hoversize : (l.oversize limit).quiet = l.quiet.oversize limit := by
      simp [quiet, oversize, LogEntry.level]
    rw [hoversize]
  · rfl

theorem quiet_enterDatagram (length : Nat) (time : Span) :
    (l.enterDatagram limit length time).quiet = l.quiet.enterDatagram limit length time := by
  have hdecision : l.quiet.intakeDecision limit length time =
      l.intakeDecision limit length time := rfl
  rw [enterDatagram_eq, enterDatagram_eq, hdecision, ← quiet_intake]
  cases (l.intakeDecision limit length time).verdict <;> rfl

theorem arrivalLog_enterDatagram (length : Nat) (time : Span) :
    (l.enterDatagram limit length time).arrivalLog = l.arrivalLog := by
  have hlog : (l.enterDatagram limit length time).log = (l.intake limit length time).1.log := by
    rw [enterDatagram_eq]
    cases (l.intakeDecision limit length time).verdict <;> rfl
  unfold arrivalLog
  rw [hlog, intake_log, List.filter_append, List.filter_append]
  split <;> split <;> simp [LogEntry.level]

end Ledger

namespace Session

variable {π : Type} [LossPolicy π] {settings : RelaySettings} {s : Session π}

/-! ### The loop beside its books -/

/-- **One delivery.**  The loop logs the arrival of the datagram, and then does to its books what is
entered of the length and the time, if the answers to the attempts that it makes are full. -/
theorem handle_ledger (hs : s.Sized settings) (d : Datagram) {new : List Attempt}
    (hnew : (s.handle settings d.delivery).attempts = s.attempts ++ new)
    (hfull : ∀ a ∈ answered s.outcomes new, a.2.IsFull a.1.payload.length) :
    (s.handle settings d.delivery).ledger =
      (s.ledger.note (d.arrivalEntry settings.payloadLimit.toNat)).enterDatagram
        settings.payloadLimit d.payload.length d.time := by
  have hhandle : s.handle settings d.delivery = s.receive settings d.payload d.time d.source := rfl
  have hheard : s.heard d.payload d.source =
      s.ledger.note (d.arrivalEntry settings.payloadLimit.toNat) := heard_eq settings hs ..
  rw [hhandle] at hnew ⊢
  rw [← hheard, Ledger.enterDatagram_eq, heard_decision]
  cases hv : (s.decision settings d.payload d.time).verdict with
  | drop => rw [receive_of_drop hs hv]
  | forward =>
    rw [receive_of_forward hs hv] at hnew ⊢
    obtain rfl := List.append_cancel_left hnew
    have hanswer := hfull _ (List.mem_singleton_self _)
    rw [length_take_limit] at hanswer
    rw [Ledger.answer_of_isFull _ _ hanswer]

/-- **Any number of deliveries.**  On datagrams alone the loop does to its books what is entered of
their lengths and times, if all answers are full; of what it logs besides, each datagram leaves one
entry, in order. -/
theorem handleAll_ledger (hs : s.Sized settings) (ds : List Datagram) {new : List Attempt}
    (hnew : (s.handleAll settings (ds.map Datagram.delivery)).attempts = s.attempts ++ new)
    (hfull : ∀ a ∈ answered s.outcomes new, a.2.IsFull a.1.payload.length) :
    let after := (s.handleAll settings (ds.map Datagram.delivery)).ledger
    after.quiet = s.ledger.quiet.enterDatagrams settings.payloadLimit
        (ds.map fun d => (d.payload.length, d.time)) ∧
      after.arrivalLog =
        s.ledger.arrivalLog ++ ds.map (Datagram.arrivalEntry settings.payloadLimit.toNat) := by
  induction ds generalizing s new with
  | nil => exact ⟨rfl, (List.append_nil _).symm⟩
  | cons d ds ih =>
    rw [List.map_cons, handleAll_cons] at hnew
    -- the attempts made for this datagram, and those made for the others
    obtain ⟨first, hfirst⟩ := handle_carried hs d.delivery
    obtain ⟨rest, hrest⟩ := handleAll_carried hfirst.sized (ds.map Datagram.delivery)
    have hsplit : new = first ++ rest := by
      apply @List.append_cancel_left _ s.attempts
      rw [← hnew, hrest.attempts, hfirst.attempts, List.append_assoc]
    rw [hsplit, answered_append, ← hfirst.outcomes] at hfull
    have hone := handle_ledger hs d hfirst.attempts fun a ha =>
      hfull a (List.mem_append_left _ ha)
    obtain ⟨hquiet, harrivals⟩ := ih hfirst.sized hrest.attempts fun a ha =>
      hfull a (List.mem_append_right _ ha)
    refine ⟨hquiet.trans ?_, harrivals.trans ?_⟩
    · rw [hone, Ledger.quiet_enterDatagram, Ledger.quiet_note_arrivalEntry]
      rfl
    · rw [hone, Ledger.arrivalLog_enterDatagram, Ledger.arrivalLog_note_arrivalEntry,
        List.append_assoc]
      rfl

end Session

/-! ### One run -/

/-- **The loop refines its books.**  Set up a relay and let it read a script of datagrams, with a
socket that reports every send in full.  The run comes to the end of the script.  Of its log, the
entries of the lowest level show one datagram after the other, with its length, up to one byte beyond
the limit, and where it came from.  Without them its books are the very books that come of the
lengths and the times of the datagrams alone, entered in fresh books with the same policy and the
same trace queue: the same policy, counters, metrics, log, trace queue and pending events.  It
returns the counters of these books. -/
theorem Relay.run_keeps_books {π : Type} [LossPolicy π] {settings : RelaySettings} {policy : π}
    {queue : TraceQueue} {relay : Relay π} (h : onSocket settings policy queue = .ok relay)
    (ds : List Datagram) (outcomes : List SendOutcome)
    (hfull : ∀ a ∈ answered outcomes (relay.run (ds.map Datagram.delivery) outcomes).attempts,
      a.2.IsFull a.1.payload.length) :
    let run := relay.run (ds.map Datagram.delivery) outcomes
    let books := (Ledger.fresh policy queue).enterDatagrams settings.payloadLimit
      (ds.map fun d => (d.payload.length, d.time))
    run.relay.settings = settings ∧ run.relay.ledger.quiet = books ∧
      run.relay.ledger.arrivalLog =
        ds.map (Datagram.arrivalEntry settings.payloadLimit.toNat) ∧
      run.relay.ledger.arrivalLog.map LogEntry.message = ds.map (fun d =>
        toString (min d.payload.length (settings.payloadLimit.toNat + 1)) ++ " bytes from " ++
          d.source.text) ∧
      run.unread = [] ∧ run.result = .ok books.stats := by
  obtain ⟨hvalid, rfl⟩ := eq_of_onSocket h
  have hcalm : ¬ HasStreak settings.errorLimit.toNat (ds.map Datagram.delivery) := by
    apply not_hasStreak_of_no_fault (RelaySettings.limits_of_validate hvalid).2
    intro d hd
    obtain ⟨_, -, rfl⟩ := List.mem_map.mp hd
    rfl
  have hrun := run_of_calm (r := ⟨settings, .fresh policy queue⟩) hvalid hcalm outcomes
  have hsized := session_sized (r := ⟨settings, .fresh policy queue⟩) hvalid outcomes
  simp only [hrun] at hfull
  obtain ⟨hbooks, harrivals⟩ :=
    Session.handleAll_ledger hsized ds (List.nil_append _).symm hfull
  intro run books
  have hend : run = _ := hrun
  rw [hend]
  refine ⟨rfl, hbooks, harrivals, ?_, rfl, ?_⟩
  · refine (congrArg (List.map LogEntry.message) harrivals).trans ((List.map_map ..).trans ?_)
    exact List.map_congr_left fun d _ => d.message_arrivalEntry hsized.2
  · rw [← Ledger.quiet_stats, hbooks]
    rfl

/-- Datagrams that are shorter than the limit, just as long, and longer, of which one is dropped;
the socket counts the bytes of the first send, and the trace queue has room for one event. -/
theorem Relay.run_keeps_books_of_four :
    let settings : RelaySettings := { RelaySettings.between default default with payloadLimit := 4 }
    let policy : IndexPolicy := ⟨⟨10, .ofList [2], .empty⟩⟩
    let ds : List Datagram :=
      [⟨[1, 2], .zero, default⟩, ⟨[3, 4, 5, 6], .ofMillis 5, default⟩,
        ⟨[7, 8, 9, 10, 11, 12], .ofMillis 3, .v4 .loopback 53⟩, ⟨[], .zero, default⟩]
    let outcomes : List SendOutcome := [.counted 2, .whole]
    ∃ relay, onSocket settings policy (.bounded 1) = .ok relay ∧
      (∀ a ∈ answered outcomes (relay.run (ds.map Datagram.delivery) outcomes).attempts,
        a.2.IsFull a.1.payload.length) ∧
      (relay.run (ds.map Datagram.delivery) outcomes).relay.ledger.quiet.log =
        [.oversizePacket 2 4, .droppedPacket 2 4] ∧
      (relay.run (ds.map Datagram.delivery) outcomes).relay.ledger.arrivalLog =
        [.received 2 default, .received 4 default, .received 5 (.v4 .loopback 53),
          .received 0 default] ∧
      (relay.run (ds.map Datagram.delivery) outcomes).result =
        .ok { received := 4, forwarded := 3, dropped := 1, bytesReceived := 10,
              bytesForwarded := 6, truncated := 1, traceDiscarded := 3 } := by
  intro settings policy ds outcomes
  have h : onSocket settings policy (.bounded 1) = .ok ⟨settings, .fresh policy (.bounded 1)⟩ := rfl
  have hfull : ∀ a ∈ answered outcomes (Relay.run ⟨settings, .fresh policy (.bounded 1)⟩
      (ds.map Datagram.delivery) outcomes).attempts, a.2.IsFull a.1.payload.length := by decide
  obtain ⟨-, hbooks, harrivals, -, -, hresult⟩ := run_keeps_books h ds outcomes hfull
  refine ⟨_, h, hfull, ?_, harrivals, ?_⟩
  · rw [hbooks]
    decide
  · rw [hresult]
    exact congrArg Except.ok (by decide)

/-- One datagram shows that the loop logs more than its books: where the datagram came from. -/
theorem Relay.run_logs_an_arrival :
    let settings : RelaySettings := { RelaySettings.between default default with payloadLimit := 4 }
    let policy : IndexPolicy := ⟨⟨10, .empty, .empty⟩⟩
    let d : Datagram := ⟨[1], .zero, .v4 .loopback 53⟩
    ∃ relay, onSocket settings policy .disabled = .ok relay ∧
      (∀ a ∈ answered [] (relay.run [d.delivery] []).attempts, a.2.IsFull a.1.payload.length) ∧
      (relay.run [d.delivery] []).relay.ledger.log.map LogEntry.message =
        ["1 bytes from 127.0.0.1:53"] ∧
      ((Ledger.fresh policy .disabled).enterDatagram settings.payloadLimit 1 .zero).log = [] :=
  ⟨_, rfl, by decide, by decide, by decide⟩

end LossRelay
