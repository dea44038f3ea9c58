import LossRelay.Relay.Session
import Mathlib.Algebra.GroupWithZero.Nat

/-!
# What the entries of a ledger change

For every operation on the books of a relay, what it does to each part that a decision, a counter
or a trace line is read from.  Everything not named here stays as it is.
-/

namespace LossRelay.Ledger

variable {π : Type}

/-! ### Judging -/

section Judge

variable [LossPolicy π] (l : Ledger π) (size : UInt64) (time : Span)

/-- The decision on the next datagram: its number is the number of those received before it. -/
def decision : Decision π := LossPolicy.decide l.policy ⟨l.tally.received, time, size⟩

theorem judge_verdict : (l.judge size time).2 = (l.decision size time).verdict := by
  unfold judge decision
  dsimp only
  split <;> simp [*]

theorem judge_policy : (l.judge size time).1.policy = (l.decision size time).next := by
  unfold judge decision
  dsimp only
  split <;> rfl

theorem judge_pending :
    (l.judge size time).1.pending = l.pending ++ (l.decision size time).events := by
  unfold judge decision
  dsimp only
  split <;> rfl

theorem judge_queue : (l.judge size time).1.queue = l.queue := by
  unfold judge
  dsimp only
  split <;> rfl

theorem judge_tally : (l.judge size time).1.tally =
    { l.tally with
      received := l.tally.received + 1
      bytesReceived := l.tally.bytesReceived + size
      dropped := l.tally.dropped + if (l.decision size time).verdict = .drop then 1 else 0 } := by
  unfold judge decision
  dsimp only
  split <;> rename_i h <;> simp [h, countDrop, adopt, countArrival]

theorem judge_log : (l.judge size time).1.log =
    l.log ++ if (l.decision size time).verdict = .drop then [.droppedPacket l.tally.received size]
      else [] := by
  unfold judge decision
  dsimp only
  split <;> rename_i h <;> simp [h, countDrop, adopt, countArrival]

/-- The arrival is measured, then what the decision measured, and then a drop under the name of the
policy. -/
theorem judge_metrics : (l.judge size time).1.metrics =
    l.metrics.recordAll (.received size :: (l.decision size time).measurements ++
      if (l.decision size time).verdict = .drop then
        [.dropped (LossPolicy.name (l.decision size time).next)] else []) := by
  unfold judge decision
  dsimp only
  split <;> rename_i h <;> simp [h, countDrop, adopt, countArrival, Metrics.recordAll]

end Judge

/-! ### Taking in a datagram -/

section Intake

variable [LossPolicy π] (l : Ledger π) (limit : UInt64) (length : Nat) (time : Span)

/-- A datagram of the given length is entered: as too long if it is, and by its verdict. -/
def intake : Ledger π × Verdict :=
  (if limit.toNat < length then l.oversize limit else l).judge
    (.ofNat (min length limit.toNat)) time

/-- The decision on a datagram of the given length, which a policy knows up to the limit. -/
def intakeDecision : Decision π := l.decision (.ofNat (min length limit.toNat)) time

/-- That a datagram was too long does not change the decision on it. -/
theorem decision_oversize :
    (if limit.toNat < length then l.oversize limit else l).decision
      (.ofNat (min length limit.toNat)) time = l.intakeDecision limit length time := by
  split <;> rfl

theorem intake_verdict :
    (l.intake limit length time).2 = (l.intakeDecision limit length time).verdict := by
  rw [← decision_oversize]
  exact judge_verdict ..

theorem intake_policy :
    (l.intake limit length time).1.policy = (l.intakeDecision limit length time).next := by
  rw [← decision_oversize]
  exact judge_policy ..

theorem intake_pending : (l.intake limit length time).1.pending =
    l.pending ++ (l.intakeDecision limit length time).events := by
  rw [← decision_oversize]
  refine (judge_pending ..).trans ?_
  split <;> rfl

theorem intake_queue : (l.intake limit length time).1.queue = l.queue := by
  refine (judge_queue ..).trans ?_
  split <;> rfl

theorem intake_tally : (l.intake limit length time).1.tally =
    { l.tally with
      received := l.tally.received + 1
      bytesReceived := l.tally.bytesReceived + .ofNat (min length limit.toNat)
      truncated := l.tally.truncated + if limit.toNat < length then 1 else 0
      dropped := l.tally.dropped +
        if (l.intakeDecision limit length time).verdict = .drop then 1 else 0 } := by
  rw [← decision_oversize]
  refine (judge_tally ..).trans ?_
  by_cases h : limit.toNat < length
  · simp [h, oversize]
  · simp [h]

theorem intake_log : (l.intake limit length time).1.log =
    l.log ++ (if limit.toNat < length then [.oversizePacket l.tally.received limit] else []) ++
      if (l.intakeDecision limit length time).verdict = .drop then
        [.droppedPacket l.tally.received (.ofNat (min length limit.toNat))] else [] := by
  rw [← decision_oversize]
  refine (judge_log ..).trans ?_
  by_cases h : limit.toNat < length
  · simp [h, oversize]
  · simp [h]

theorem intake_metrics : (l.intake limit length time).1.metrics =
    l.metrics.recordAll (.received (.ofNat (min length limit.toNat)) ::
      (l.intakeDecision limit length time).measurements ++
      if (l.intakeDecision limit length time).verdict = .drop then
        [.dropped (LossPolicy.name (l.intakeDecision limit length time).next)] else []) := by
  rw [← decision_oversize]
  refine (judge_metrics ..).trans ?_
  split <;> rfl

end Intake

/-! ### The answer to a send -/

section Answer

variable (l : Ledger π) (remote : Endpoint) (size : UInt64)

def answer : SendOutcome → Ledger π
  | .whole => l.forwarded size
  | .counted bytes =>
    (if bytes = size then l else l.note (.shortSend remote bytes size)).forwarded bytes
  | .fault fault => (l.failed .send).note (.sendFailed remote fault)

/-- What is logged of the answer to a send: a count that is not the size, and a failure. -/
def answerEntries (remote : Endpoint) (size : UInt64) : SendOutcome → List LogEntry
  | .whole => []
  | .counted bytes => if bytes = size then [] else [.shortSend remote bytes size]
  | .fault fault => [.sendFailed remote fault]

theorem of_mem_answerEntries {remote : Endpoint} {size : UInt64} {o : SendOutcome}
    {entry : LogEntry} (h : entry ∈ answerEntries remote size o) :
    (∃ bytes, entry = .shortSend remote bytes size) ∨ ∃ fault, entry = .sendFailed remote fault := by
  cases o with
  | whole => cases h
  | counted bytes =>
    unfold answerEntries at h
    dsimp only at h
    split at h
    · cases h
    · exact .inl ⟨bytes, List.mem_singleton.mp h⟩
  | fault fault => exact .inr ⟨fault, List.mem_singleton.mp h⟩

/-- What is logged of an answer is all that depends on whether a count is the size. -/
theorem answer_eq (o : SendOutcome) :
    l.answer remote size o =
      let entered := match o with
        | .whole => l.forwarded size
        | .counted bytes => l.forwarded bytes
        | .fault _ => l.failed .send
      { entered with log := l.log ++ answerEntries remote size o } := by
  have hnone (m : Ledger π) : { m with log := m.log ++ [] } = m := by rw [List.append_nil]
  cases o with
  | whole => exact (hnone _).symm
  | counted bytes =>
    unfold answer answerEntries
    dsimp only
    split
    · exact (hnone _).symm
    · rfl
  | fault fault => rfl

theorem answer_log (o : SendOutcome) :
    (l.answer remote size o).log = l.log ++ answerEntries remote size o := by rw [answer_eq]

theorem answer_policy (o : SendOutcome) : (l.answer remote size o).policy = l.policy := by
  rw [answer_eq]
  cases o <;> rfl

theorem answer_pending (o : SendOutcome) : (l.answer remote size o).pending = l.pending := by
  rw [answer_eq]
  cases o <;> rfl

theorem answer_queue (o : SendOutcome) : (l.answer remote size o).queue = l.queue := by
  rw [answer_eq]
  cases o <;> rfl

theorem answer_tally (o : SendOutcome) : (l.answer remote size o).tally =
    match o with
    | .whole => (l.forwarded size).tally
    | .counted bytes => (l.forwarded bytes).tally
    | .fault _ => (l.failed .send).tally := by
  rw [answer_eq]
  cases o <;> rfl

def answerMeasurement (size : UInt64) : SendOutcome → Measurement
  | .whole => .forwarded size
  | .counted bytes => .forwarded bytes
  | .fault _ => .failed .send

theorem answer_metrics (o : SendOutcome) :
    (l.answer remote size o).metrics = l.metrics.record (answerMeasurement size o) := by
  rw [answer_eq]
  cases o <;> rfl

end Answer

end LossRelay.Ledger
