import LossRelay.Proofs.Relay.Books

/-!
# One delivery after the other

The loop of a relay reads a script until it gives up.  Whatever its end, the session there is the
one after handling the deliveries that were read, one after the other, and what is left of the
script is unread (`Session.run_reads`).  The rest of this module says what handling one delivery
does.  The receive buffer stays one byte longer than the payload limit, so a payload is taken from
it whole, without a byte of an earlier one (`Session.accept_eq`).
-/

namespace LossRelay

namespace Session

variable {π : Type} (settings : RelaySettings)

/-! ### The loop -/

section Loop

variable [LossPolicy π]

/-- What a relay does with one delivery. -/
def handle (s : Session π) : Delivery → Session π
  | .datagram payload time source => s.receive settings payload time source
  | .fault fault => s.receiveFailed fault

def handleAll (s : Session π) (script : List Delivery) : Session π :=
  script.foldl (handle settings) s

theorem handleAll_cons (s : Session π) (d : Delivery) (rest : List Delivery) :
    s.handleAll settings (d :: rest) = (s.handle settings d).handleAll settings rest := rfl

theorem run_fault (s : Session π) (cause : IoFault) (rest : List Delivery) :
    s.run settings (.fault cause :: rest) =
      if settings.errorLimit ≤ (s.receiveFailed cause).streak then
        (s.receiveFailed cause, rest, .error (.socketUnusable (s.receiveFailed cause).streak cause))
      else (s.receiveFailed cause).run settings rest := rfl

/-- **The loop reads a first part of its script** and leaves the rest. -/
theorem run_reads (s : Session π) (script : List Delivery) :
    ∃ read, script = read ++ (s.run settings script).2.1 ∧
      (s.run settings script).1 = s.handleAll settings read := by
  induction script generalizing s with
  | nil => exact ⟨[], rfl, rfl⟩
  | cons d rest ih =>
    cases d with
    | datagram payload time source =>
      obtain ⟨read, hrest, hrun⟩ := ih (s.receive settings payload time source)
      exact ⟨.datagram payload time source :: read, congrArg (_ :: ·) hrest, hrun⟩
    | fault fault =>
      unfold run
      dsimp only
      split
      · exact ⟨[.fault fault], rfl, rfl⟩
      · obtain ⟨read, hrest, hrun⟩ := ih (s.receiveFailed fault)
        exact ⟨.fault fault :: read, congrArg (_ :: ·) hrest, hrun⟩

end Loop

/-! ### The buffer -/

/-- The buffer has one byte more than the payload limit, which fits a machine word. -/
def Sized (s : Session π) : Prop :=
  s.buffer.length = settings.payloadLimit.toNat + 1 ∧ settings.payloadLimit.toNat + 1 < 2 ^ 64

theorem length_overwrite (buffer payload : List UInt8) :
    (overwrite buffer payload).length = buffer.length := by
  unfold overwrite
  simp only [List.length_append, List.length_take, List.length_drop]
  omega

theorem take_overwrite {buffer payload : List UInt8} {n : Nat} (hn : n ≤ payload.length)
    (hb : n ≤ buffer.length) : (overwrite buffer payload).take n = payload.take n := by
  unfold overwrite
  rw [List.take_append_of_le_length (by simp; omega), List.take_take, Nat.min_eq_left hb]

/-- One byte to spare is all that a receive reports beyond the limit. -/
theorem reported_eq {s : Session π} (hs : s.Sized settings) (payload : List UInt8) :
    reported s.buffer payload =
      .ofNat (min payload.length (settings.payloadLimit.toNat + 1)) := by
  unfold reported
  rw [hs.1]

/-- The reported length tells an oversize datagram from one that just fits. -/
theorem limit_lt_reported_iff {s : Session π} (hs : s.Sized settings) (payload : List UInt8) :
    settings.payloadLimit < reported s.buffer payload ↔
      settings.payloadLimit.toNat < payload.length := by
  rw [UInt64.lt_iff_toNat_lt, reported_eq settings hs,
    UInt64.toNat_ofNat_of_lt' (Nat.lt_of_le_of_lt (Nat.min_le_right ..) hs.2)]
  omega

theorem judged_size {s : Session π} (hs : s.Sized settings) (payload : List UInt8) :
    (if settings.payloadLimit < reported s.buffer payload then settings.payloadLimit
      else reported s.buffer payload) =
      .ofNat (min payload.length settings.payloadLimit.toNat) := by
  have hlt := limit_lt_reported_iff settings hs payload
  by_cases h : settings.payloadLimit.toNat < payload.length
  · rw [if_pos (hlt.mpr h), Nat.min_eq_right (Nat.le_of_lt h), UInt64.ofNat_toNat]
  · rw [if_neg (fun hc => h (hlt.mp hc)), Nat.min_eq_left (Nat.not_lt.mp h)]
    rw [reported_eq settings hs, Nat.min_eq_left (by omega)]

/-- The books once the arrival of a datagram has been logged. -/
def heard (s : Session π) (payload : List UInt8) (source : Endpoint) : Ledger π :=
  s.ledger.note (.received (reported s.buffer payload) source)

theorem heard_eq {s : Session π} (hs : s.Sized settings) (payload : List UInt8)
    (source : Endpoint) :
    s.heard payload source = s.ledger.note
      (.received (.ofNat (min payload.length (settings.payloadLimit.toNat + 1))) source) := by
  unfold heard
  rw [reported_eq settings hs]

theorem heard_log (s : Session π) (payload : List UInt8) (source : Endpoint) :
    (s.heard payload source).log =
      s.ledger.log ++ [.received (reported s.buffer payload) source] := rfl

@[simp] theorem heard_tally (s : Session π) (payload : List UInt8) (source : Endpoint) :
    (s.heard payload source).tally = s.ledger.tally := rfl

/-- **What is received is judged by its length and passed on from its own bytes**, cut at the
limit. -/
theorem accept_eq [LossPolicy π] {s : Session π} (hs : s.Sized settings) (payload : List UInt8)
    (time : Span) (source : Endpoint) :
    s.accept settings payload time source =
      ({ s with
          ledger := ((s.heard payload source).intake settings.payloadLimit payload.length time).1
          buffer := overwrite s.buffer payload
          streak := 0 },
        match ((s.heard payload source).intake settings.payloadLimit payload.length time).2 with
        | .forward => some (payload.take settings.payloadLimit.toNat)
        | .drop => none) := by
  have hsize : (UInt64.ofNat (min payload.length settings.payloadLimit.toNat)).toNat =
      min payload.length settings.payloadLimit.toNat :=
    UInt64.toNat_ofNat_of_lt' (Nat.lt_of_le_of_lt (by omega) hs.2)
  have hbytes : (overwrite s.buffer payload).take (min payload.length settings.payloadLimit.toNat) =
      payload.take settings.payloadLimit.toNat := by
    rw [take_overwrite (Nat.min_le_left ..) (by rw [hs.1]; omega), List.take_eq_take_iff]
    omega
  have hledger (l : Ledger π) : (if settings.payloadLimit < reported s.buffer payload then
        l.oversize settings.payloadLimit else l) =
      if settings.payloadLimit.toNat < payload.length then
        l.oversize settings.payloadLimit else l := by
    simp only [limit_lt_reported_iff settings hs]
  unfold accept
  dsimp only
  rw [judged_size settings hs, hsize, hbytes, hledger]
  rfl

/-! ### One send -/

theorem length_take_limit (payload : List UInt8) :
    (payload.take settings.payloadLimit.toNat).length =
      min payload.length settings.payloadLimit.toNat := by
  rw [List.length_take, Nat.min_comm]

theorem nextOutcome_snd (outcomes : List SendOutcome) :
    (nextOutcome outcomes).2 = outcomes.drop 1 := by cases outcomes <;> rfl

theorem send_eq (s : Session π) (remote : Endpoint) (payload : List UInt8) :
    s.send remote payload =
      { s with
        ledger := s.ledger.answer remote (.ofNat payload.length) (nextOutcome s.outcomes).1
        outcomes := s.outcomes.drop 1
        attempts := s.attempts ++ [⟨remote, payload⟩] } := by
  unfold send conclude
  rw [← nextOutcome_snd]
  obtain ⟨o, os⟩ := nextOutcome s.outcomes
  cases o <;> rfl

/-! ### One delivery -/

section Handle

variable [LossPolicy π] {settings} {s : Session π}

def decision (settings : RelaySettings) (s : Session π) (payload : List UInt8) (time : Span) :
    Decision π :=
  s.ledger.intakeDecision settings.payloadLimit payload.length time

theorem heard_decision (payload : List UInt8) (time : Span) (source : Endpoint) :
    (s.heard payload source).intakeDecision settings.payloadLimit payload.length time =
      s.decision settings payload time := rfl

theorem receive_of_drop (hs : s.Sized settings) {payload : List UInt8} {time : Span}
    {source : Endpoint} (hv : (s.decision settings payload time).verdict = .drop) :
    s.receive settings payload time source =
      { s with
        ledger := ((s.heard payload source).intake settings.payloadLimit payload.length time).1.flush
        buffer := overwrite s.buffer payload
        streak := 0 } := by
  unfold receive
  rw [accept_eq settings hs, Ledger.intake_verdict, heard_decision]
  simp only [hv]
  rfl

theorem receive_of_forward (hs : s.Sized settings) {payload : List UInt8} {time : Span}
    {source : Endpoint} (hv : (s.decision settings payload time).verdict = .forward) :
    s.receive settings payload time source =
      { s with
        ledger := (((s.heard payload source).intake settings.payloadLimit payload.length time).1.answer
          settings.remote (.ofNat (min payload.length settings.payloadLimit.toNat))
          (nextOutcome s.outcomes).1).flush
        buffer := overwrite s.buffer payload
        streak := 0
        outcomes := s.outcomes.drop 1
        attempts := s.attempts ++
          [⟨settings.remote, payload.take settings.payloadLimit.toNat⟩] } := by
  unfold receive
  rw [accept_eq settings hs, Ledger.intake_verdict, heard_decision]
  simp only [hv, send_eq, length_take_limit]
  rfl

theorem receive_sized (hs : s.Sized settings) (payload : List UInt8) (time : Span)
    (source : Endpoint) : (s.receive settings payload time source).Sized settings := by
  have hb : (overwrite s.buffer payload).length = settings.payloadLimit.toNat + 1 :=
    (length_overwrite ..).trans hs.1
  cases hv : (s.decision settings payload time).verdict with
  | forward => rw [receive_of_forward hs hv]; exact ⟨hb, hs.2⟩
  | drop => rw [receive_of_drop hs hv]; exact ⟨hb, hs.2⟩

theorem receive_policy (hs : s.Sized settings) (payload : List UInt8) (time : Span)
    (source : Endpoint) :
    (s.receive settings payload time source).ledger.policy =
      (s.decision settings payload time).next := by
  cases hv : (s.decision settings payload time).verdict with
  | forward =>
    rw [receive_of_forward hs hv]
    exact (Ledger.answer_policy ..).trans (Ledger.intake_policy ..)
  | drop =>
    rw [receive_of_drop hs hv]
    exact Ledger.intake_policy ..

theorem receive_streak (hs : s.Sized settings) (payload : List UInt8) (time : Span)
    (source : Endpoint) : (s.receive settings payload time source).streak = 0 := by
  cases hv : (s.decision settings payload time).verdict with
  | forward => rw [receive_of_forward hs hv]
  | drop => rw [receive_of_drop hs hv]

/-- After its arrival a datagram is logged if it is too long, and then if it is dropped or its send
did not go as it should. -/
theorem receive_log (hs : s.Sized settings) (payload : List UInt8) (time : Span)
    (source : Endpoint) : (s.receive settings payload time source).ledger.log =
      (s.heard payload source).log ++
        (if settings.payloadLimit.toNat < payload.length then
          [.oversizePacket s.ledger.tally.received settings.payloadLimit] else []) ++
        match (s.decision settings payload time).verdict with
        | .forward => Ledger.answerEntries settings.remote
            (.ofNat (min payload.length settings.payloadLimit.toNat)) (nextOutcome s.outcomes).1
        | .drop => [.droppedPacket s.ledger.tally.received
            (.ofNat (min payload.length settings.payloadLimit.toNat))] := by
  cases hv : (s.decision settings payload time).verdict with
  | forward =>
    rw [receive_of_forward hs hv]
    refine (Ledger.answer_log ..).trans ?_
    rw [Ledger.intake_log, heard_decision, hv]
    simp
  | drop =>
    rw [receive_of_drop hs hv]
    refine (Ledger.intake_log ..).trans ?_
    rw [heard_decision, hv]
    simp

theorem receive_pending (hs : s.Sized settings) (payload : List UInt8) (time : Span)
    (source : Endpoint) : (s.receive settings payload time source).ledger.pending = [] := by
  cases hv : (s.decision settings payload time).verdict with
  | forward => rw [receive_of_forward hs hv]; rfl
  | drop => rw [receive_of_drop hs hv]; rfl

theorem receive_queue (hs : s.Sized settings) (payload : List UInt8) (time : Span)
    (source : Endpoint) : (s.receive settings payload time source).ledger.queue =
      s.ledger.queue.emitAll
        (s.ledger.pending ++ (s.decision settings payload time).events) := by
  cases hv : (s.decision settings payload time).verdict with
  | forward =>
    rw [receive_of_forward hs hv]
    unfold Ledger.flush
    dsimp only
    rw [Ledger.answer_queue, Ledger.answer_pending, Ledger.intake_queue, Ledger.intake_pending]
    rfl
  | drop =>
    rw [receive_of_drop hs hv]
    unfold Ledger.flush
    dsimp only
    rw [Ledger.intake_queue, Ledger.intake_pending]
    rfl

end Handle

end Session

end LossRelay
