import LossRelay.Proofs.Policy.Decisions
import LossRelay.Proofs.Relay.Account
import LossRelay.Proofs.Relay.Deliveries

/-!
# The passage of deliveries

`Passage` says what the deliveries read between two states of the books have done: the decisions are
those of the policy on the datagrams in order, the attempts are the payloads that pass, and the
counters have grown by the exact account.  It holds of every single delivery
(`Session.handle_passage`) and of two stretches in a row if it holds of both (`Passage.trans`), so
it holds of any part of a run and of any runs in a row.
-/

namespace LossRelay

variable {π : Type} [LossPolicy π] {settings : RelaySettings}

namespace Ledger

/-- The decisions on the datagrams of a script and the policy after them. -/
def decisions (settings : RelaySettings) (l : Ledger π) (script : List Delivery) :
    List (Decision π) × π :=
  LossPolicy.decideAll l.policy
    (arrivals settings.payloadLimit.toNat l.tally.received (datagrams script))

/-- The verdicts on the datagrams of a script. -/
def verdicts (settings : RelaySettings) (l : Ledger π) (script : List Delivery) : List Verdict :=
  (l.decisions settings script).1.map (·.verdict)

/-- The attempts to send that the datagrams of a script call for. -/
def attempts (settings : RelaySettings) (l : Ledger π) (script : List Delivery) : List Attempt :=
  (passed settings.payloadLimit.toNat (datagrams script) (l.verdicts settings script)).map
    (Attempt.mk settings.remote)

/-- The events that a policy reports of the datagrams of a script. -/
def events (settings : RelaySettings) (l : Ledger π) (script : List Delivery) : List TraceEvent :=
  (l.decisions settings script).1.flatMap (·.events)

theorem length_verdicts (settings : RelaySettings) (l : Ledger π) (script : List Delivery) :
    (l.verdicts settings script).length = (datagrams script).length := by
  unfold verdicts decisions
  rw [List.length_map, LossPolicy.length_decideAll, length_arrivals]

end Ledger

/-- Reading deliveries, with these answers to the attempts, leads from one state of the books to
another. -/
structure Passage (settings : RelaySettings) (read : List Delivery)
    (answers : List (Attempt × SendOutcome)) (l m : Ledger π) : Prop where
  policy : m.policy = (l.decisions settings read).2
  attempts : answers.map Prod.fst = l.attempts settings read
  tally : m.tally =
    (Account.of settings.payloadLimit.toNat (datagrams read) (l.verdicts settings read) answers
      (faults read).length).addTo l.tally

namespace Passage

variable {read read' : List Delivery} {answers answers' : List (Attempt × SendOutcome)}
  {l m n : Ledger π}

theorem refl (l : Ledger π) : Passage settings [] [] l l :=
  ⟨rfl, rfl, (Account.of_nil _ _).symm⟩

theorem received (h : Passage settings read answers l m) :
    m.tally.received = l.tally.received + .ofNat (datagrams read).length := by
  rw [h.tally]
  rfl

theorem receiveFailures (h : Passage settings read answers l m) :
    m.tally.receiveFailures = l.tally.receiveFailures + .ofNat (faults read).length := by
  rw [h.tally]
  rfl

/-- The decisions on more deliveries go on from where the first ones have led. -/
theorem decisions_append (h : Passage settings read answers l m) (more : List Delivery) :
    l.decisions settings (read ++ more) =
      ((l.decisions settings read).1 ++ (m.decisions settings more).1,
        (m.decisions settings more).2) := by
  unfold Ledger.decisions
  rw [datagrams_append, arrivals_append, LossPolicy.decideAll_append, h.received, h.policy]
  rfl

theorem verdicts_append (h : Passage settings read answers l m) (more : List Delivery) :
    l.verdicts settings (read ++ more) = l.verdicts settings read ++ m.verdicts settings more := by
  unfold Ledger.verdicts
  rw [h.decisions_append, List.map_append]

theorem attempts_append (h : Passage settings read answers l m) (more : List Delivery) :
    l.attempts settings (read ++ more) = l.attempts settings read ++ m.attempts settings more := by
  unfold Ledger.attempts
  rw [h.verdicts_append, datagrams_append,
    passed_append _ (Ledger.length_verdicts settings l read).symm, List.map_append]

theorem events_append (h : Passage settings read answers l m) (more : List Delivery) :
    l.events settings (read ++ more) = l.events settings read ++ m.events settings more := by
  unfold Ledger.events
  rw [h.decisions_append, List.flatMap_append]

/-- **Two stretches in a row are one.** -/
theorem trans (h : Passage settings read answers l m) (h' : Passage settings read' answers' m n) :
    Passage settings (read ++ read') (answers ++ answers') l n where
  policy := by rw [h'.policy, h.decisions_append]
  attempts := by rw [List.map_append, h.attempts, h'.attempts, h.attempts_append]
  tally := by
    rw [h'.tally, h.tally, ← Account.plus_addTo, ← Account.of_append, datagrams_append,
      faults_append, h.verdicts_append, List.length_append]

end Passage

theorem TraceQueue.emitAll_append (q : TraceQueue) (as bs : List TraceEvent) :
    q.emitAll (as ++ bs) = (q.emitAll as).emitAll bs := List.foldl_append

/-! ### One delivery -/

namespace Ledger

theorem decisions_datagram (l : Ledger π) (payload : List UInt8) (time : Span)
    (source : Endpoint) :
    l.decisions settings [.datagram payload time source] =
      ([l.intakeDecision settings.payloadLimit payload.length time],
        (l.intakeDecision settings.payloadLimit payload.length time).next) := by
  have h : arrivals settings.payloadLimit.toNat l.tally.received
      (datagrams [.datagram payload time source]) =
      [⟨l.tally.received, time, .ofNat (min payload.length settings.payloadLimit.toNat)⟩] := by
    simp [arrivals, datagrams, Delivery.datagram?]
  unfold decisions
  rw [h]
  rfl

theorem verdicts_datagram (l : Ledger π) (payload : List UInt8) (time : Span)
    (source : Endpoint) :
    l.verdicts settings [.datagram payload time source] =
      [(l.intakeDecision settings.payloadLimit payload.length time).verdict] := by
  unfold verdicts
  rw [decisions_datagram]
  rfl

omit [LossPolicy π] in
theorem tally_answer (l : Ledger π) (limit : Nat) (a : Attempt) (o : SendOutcome) :
    (l.answer a.remote (.ofNat a.payload.length) o).tally =
      (Account.of limit [] [] [(a, o)] 0).addTo l.tally := by
  rw [answer_tally]
  cases o <;>
    simp [Account.of, Account.addTo, SendOutcome.isFault, SendOutcome.bytes, forwarded, failed]

theorem tally_intake (l : Ledger π) (limit : UInt64) (payload : List UInt8) (time : Span)
    (source : Endpoint) :
    (l.intake limit payload.length time).1.tally =
      (Account.of limit.toNat [⟨payload, time, source⟩]
        [(l.intakeDecision limit payload.length time).verdict] [] 0).addTo l.tally := by
  rw [intake_tally]
  by_cases h : limit.toNat < payload.length <;>
    cases (l.intakeDecision limit payload.length time).verdict <;>
      simp [Account.of, Account.addTo, h]

end Ledger

namespace Session

variable {s : Session π}

theorem passage_of_drop (hs : s.Sized settings) {payload : List UInt8} {time : Span}
    {source : Endpoint} (hv : (s.decision settings payload time).verdict = .drop) :
    Passage settings [.datagram payload time source] [] s.ledger
      (s.receive settings payload time source).ledger where
  policy := by rw [receive_policy hs, Ledger.decisions_datagram]; rfl
  attempts := by
    unfold Ledger.attempts
    rw [Ledger.verdicts_datagram]
    simp only [decision] at hv
    rw [hv]
    rfl
  tally := by
    rw [receive_of_drop hs hv, Ledger.verdicts_datagram]
    exact Ledger.tally_intake ..

theorem passage_of_forward (hs : s.Sized settings) {payload : List UInt8} {time : Span}
    {source : Endpoint} (hv : (s.decision settings payload time).verdict = .forward) :
    Passage settings [.datagram payload time source]
      [(⟨settings.remote, payload.take settings.payloadLimit.toNat⟩, (nextOutcome s.outcomes).1)]
      s.ledger (s.receive settings payload time source).ledger where
  policy := by rw [receive_policy hs, Ledger.decisions_datagram]; rfl
  attempts := by
    unfold Ledger.attempts
    rw [Ledger.verdicts_datagram]
    simp only [decision] at hv
    rw [hv]
    rfl
  tally := by
    rw [receive_of_forward hs hv, Ledger.verdicts_datagram]
    have hanswer := Ledger.tally_answer
      ((s.heard payload source).intake settings.payloadLimit payload.length time).1
      settings.payloadLimit.toNat ⟨settings.remote, payload.take settings.payloadLimit.toNat⟩
      (nextOutcome s.outcomes).1
    rw [Ledger.tally_intake _ _ _ _ source, heard_tally, length_take_limit,
      ← Account.plus_addTo, ← Account.of_append] at hanswer
    exact hanswer

theorem passage_of_fault (cause : IoFault) :
    Passage settings [.fault cause] [] s.ledger (s.receiveFailed cause).ledger where
  policy := rfl
  attempts := rfl
  tally := by
    have hds : datagrams [Delivery.fault cause] = [] := rfl
    have hfs : faults [Delivery.fault cause] = [cause] := rfl
    have hvs : s.ledger.verdicts settings [Delivery.fault cause] = [] := rfl
    rw [hds, hfs, hvs]
    simp [Account.of, Account.addTo, receiveFailed, Ledger.note, Ledger.failed]

/-! ### A stretch of a run -/

/-- What a session did with deliveries: its attempts grew by new ones, each of which took the next
answer, the books followed, and every event was offered to the trace queue. -/
structure Carried (settings : RelaySettings) (read : List Delivery) (new : List Attempt)
    (s t : Session π) : Prop where
  sized : t.Sized settings
  attempts : t.attempts = s.attempts ++ new
  outcomes : t.outcomes = s.outcomes.drop new.length
  passage : Passage settings read (answered s.outcomes new) s.ledger t.ledger
  traced : s.ledger.pending = [] → t.ledger.pending = [] ∧
    t.ledger.queue = s.ledger.queue.emitAll (s.ledger.events settings read)

theorem receive_traced (hs : s.Sized settings) {payload : List UInt8} {time : Span}
    {source : Endpoint} (hp : s.ledger.pending = []) :
    (s.receive settings payload time source).ledger.pending = [] ∧
      (s.receive settings payload time source).ledger.queue =
        s.ledger.queue.emitAll (s.ledger.events settings [.datagram payload time source]) := by
  refine ⟨receive_pending hs payload time source, ?_⟩
  rw [receive_queue hs, hp]
  unfold Ledger.events
  rw [Ledger.decisions_datagram, List.flatMap_singleton, List.nil_append]
  rfl

/-- **One delivery is carried.** -/
theorem handle_carried (hs : s.Sized settings) (d : Delivery) :
    ∃ new, Carried settings [d] new s (s.handle settings d) := by
  cases d with
  | datagram payload time source =>
    cases hv : (s.decision settings payload time).verdict with
    | drop =>
      refine ⟨[], receive_sized hs payload time source, ?_, ?_, passage_of_drop hs hv,
        receive_traced hs⟩ <;>
        simp [handle, receive_of_drop hs hv]
    | forward =>
      refine ⟨[⟨settings.remote, payload.take settings.payloadLimit.toNat⟩],
        receive_sized hs payload time source, ?_, ?_, passage_of_forward hs hv, receive_traced hs⟩ <;>
        simp [handle, receive_of_forward hs hv]
  | fault cause =>
    exact ⟨[], hs, (List.append_nil _).symm, rfl, passage_of_fault cause, fun hp => ⟨hp, rfl⟩⟩

/-- **Any stretch of a script is carried.** -/
theorem handleAll_carried (hs : s.Sized settings) (read : List Delivery) :
    ∃ new, Carried settings read new s (s.handleAll settings read) := by
  induction read generalizing s with
  | nil => exact ⟨[], hs, (List.append_nil _).symm, rfl, Passage.refl _, fun hp => ⟨hp, rfl⟩⟩
  | cons d rest ih =>
    obtain ⟨new, hd⟩ := handle_carried hs d
    obtain ⟨new', hrest⟩ := ih hd.sized
    rw [handleAll_cons]
    refine ⟨new ++ new', hrest.sized, ?_, ?_, ?_, fun hp => ?_⟩
    · rw [hrest.attempts, hd.attempts, List.append_assoc]
    · rw [hrest.outcomes, hd.outcomes, List.drop_drop, List.length_append]
    · rw [answered_append, ← hd.outcomes]
      exact hd.passage.trans hrest.passage
    · obtain ⟨hp', hq⟩ := hd.traced hp
      obtain ⟨hp'', hq'⟩ := hrest.traced hp'
      refine ⟨hp'', ?_⟩
      rw [hq', hq, ← TraceQueue.emitAll_append, ← hd.passage.events_append]
      rfl

end Session

end LossRelay
