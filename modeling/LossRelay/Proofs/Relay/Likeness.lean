import LossRelay.Proofs.Relay.History

/-!
# Relays side by side

Two relays with the same settings work side by side on the same deliveries, over books that are
alike in some respect.  `Likeness` asks that each entry in the books keeps them alike and that the
verdicts do not tell them apart.  Then no delivery tells them apart (`Session.Alike.receive`), hence
no run does: both make the same attempts, stop at the same delivery and end in the same way
(`Session.Alike.run`), and so it goes on through a history of runs (`Service.Alike.serveAll`).

Books are often alike in a part of what they count, measure, log and trace (`Ledger.AlikeIn`).  If
the part is closed under entries, then this is such a likeness (`Part.Closed.likeness`).
-/

namespace LossRelay

variable {π : Type} {settings : RelaySettings}

/-- A likeness of books, and of the answers that wait in two sockets, that no entry in the books
disturbs. -/
structure Likeness [LossPolicy π] (settings : RelaySettings) (alike : Ledger π → Ledger π → Prop)
    (answering : List SendOutcome → List SendOutcome → Prop) : Prop where
  verdict {l m : Ledger π} (h : alike l m) (length : Nat) (time : Span) :
    (l.intakeDecision settings.payloadLimit length time).verdict =
      (m.intakeDecision settings.payloadLimit length time).verdict
  intake {l m : Ledger π} (h : alike l m) (length : Nat) (time : Span) :
    alike (l.intake settings.payloadLimit length time).1
      (m.intake settings.payloadLimit length time).1
  answer {l m : Ledger π} {os os' : List SendOutcome} (h : alike l m) (ho : answering os os')
    (size : UInt64) :
    alike (l.answer settings.remote size (Session.nextOutcome os).1)
      (m.answer settings.remote size (Session.nextOutcome os').1)
  left {os os' : List SendOutcome} (ho : answering os os') : answering (os.drop 1) (os'.drop 1)
  flush {l m : Ledger π} (h : alike l m) : alike l.flush m.flush
  note {l m : Ledger π} (h : alike l m) (entry : LogEntry) : alike (l.note entry) (m.note entry)
  failure {l m : Ledger π} (h : alike l m) (streak : UInt32) (cause : IoFault) :
    alike ((l.failed .receive).note (.receiveFailed streak cause))
      ((m.failed .receive).note (.receiveFailed streak cause))

theorem Likeness.same [LossPolicy π] : Likeness settings (Eq (α := Ledger π)) Eq where
  verdict h _ _ := by rw [h]
  intake h _ _ := by rw [h]
  answer h ho _ := by rw [h, ho]
  left ho := by rw [ho]
  flush h := by rw [h]
  note h _ := by rw [h]
  failure h _ _ := by rw [h]

/-! ### Parts of the books -/

/-- What is looked at in the counters, the metrics and the log, and whether the trace is. -/
structure Part where
  tally : Tally → Tally
  metrics : Metrics → Metrics
  entry : LogEntry → Bool
  trace : Bool

namespace Tally

def arrived (t : Tally) (size truncated dropped : UInt64) : Tally :=
  { t with
    received := t.received + 1
    bytesReceived := t.bytesReceived + size
    truncated := t.truncated + truncated
    dropped := t.dropped + dropped }

def answered (t : Tally) (size : UInt64) : SendOutcome → Tally
  | .whole => { t with forwarded := t.forwarded + 1, bytesForwarded := t.bytesForwarded + size }
  | .counted bytes =>
    { t with forwarded := t.forwarded + 1, bytesForwarded := t.bytesForwarded + bytes }
  | .fault _ => { t with sendFailures := t.sendFailures + 1 }

/-- The counters after one more failed receive. -/
def receiveFailed (t : Tally) : Tally := { t with receiveFailures := t.receiveFailures + 1 }

end Tally

namespace Part

/-- A part that shows the number of datagrams received, and that shows the same after an entry
whether or not the rest was there before it.  It shows the lost trace events only if it shows the
trace. -/
structure Closed (part : Part) : Prop where
  received (t : Tally) : (part.tally t).received = t.received
  arrived (t : Tally) (size truncated dropped : UInt64) :
    part.tally (t.arrived size truncated dropped) =
      part.tally ((part.tally t).arrived size truncated dropped)
  answered (t : Tally) (size : UInt64) (o : SendOutcome) :
    part.tally (t.answered size o) = part.tally ((part.tally t).answered size o)
  failed (t : Tally) : part.tally t.receiveFailed = part.tally (part.tally t).receiveFailed
  discarded (t : Tally) (n : UInt64) :
    part.tally { t with traceDiscarded := n } =
      part.tally { part.tally t with traceDiscarded := n }
  untraced (h : part.trace = false) (t : Tally) (n : UInt64) :
    part.tally { t with traceDiscarded := n } = part.tally t
  record (m : Metrics) (x : Measurement) :
    part.metrics (m.record x) = part.metrics ((part.metrics m).record x)

/-- The part does not tell two answers to a send apart. -/
structure Blind (part : Part) (o o' : SendOutcome) : Prop where
  tally (t : Tally) (size : UInt64) :
    part.tally (t.answered size o) = part.tally (t.answered size o')
  metrics (m : Metrics) (size : UInt64) :
    part.metrics (m.record (Ledger.answerMeasurement size o)) =
      part.metrics (m.record (Ledger.answerMeasurement size o'))
  log (remote : Endpoint) (size : UInt64) :
    (Ledger.answerEntries remote size o).filter part.entry =
      (Ledger.answerEntries remote size o').filter part.entry

variable {part : Part}

theorem Blind.refl (o : SendOutcome) : part.Blind o o :=
  ⟨fun _ _ => rfl, fun _ _ => rfl, fun _ _ => rfl⟩

theorem Closed.recordAll (hpart : part.Closed) {m n : Metrics}
    (h : part.metrics m = part.metrics n) (xs : List Measurement) :
    part.metrics (m.recordAll xs) = part.metrics (n.recordAll xs) := by
  induction xs generalizing m n with
  | nil => exact h
  | cons x xs ih =>
    refine ih ?_
    rw [hpart.record, h, ← hpart.record]

end Part

namespace Ledger

theorem tally_answered (l : Ledger π) (remote : Endpoint) (size : UInt64) (o : SendOutcome) :
    (l.answer remote size o).tally = l.tally.answered size o := by
  rw [answer_tally]
  cases o <;> rfl

/-- A decision depends on the policy and on the number of datagrams received, and on nothing else in
the books. -/
theorem intakeDecision_congr [LossPolicy π] {l m : Ledger π} (hpolicy : l.policy = m.policy)
    (hreceived : l.tally.received = m.tally.received) (limit : UInt64) (length : Nat)
    (time : Span) : l.intakeDecision limit length time = m.intakeDecision limit length time := by
  unfold intakeDecision decision
  rw [hpolicy, hreceived]

/-- Books with the same policy that are alike in a part of the rest. -/
structure AlikeIn (part : Part) (l m : Ledger π) : Prop where
  policy : l.policy = m.policy
  tally : part.tally l.tally = part.tally m.tally
  metrics : part.metrics l.metrics = part.metrics m.metrics
  log : l.log.filter part.entry = m.log.filter part.entry
  trace (h : part.trace = true) : l.pending = m.pending ∧ l.queue = m.queue

namespace AlikeIn

variable {part : Part} {l m : Ledger π}

theorem refl (part : Part) (l : Ledger π) : AlikeIn part l l :=
  ⟨rfl, rfl, rfl, rfl, fun _ => ⟨rfl, rfl⟩⟩

theorem received (hpart : part.Closed) (h : AlikeIn part l m) :
    l.tally.received = m.tally.received := by
  rw [← hpart.received, h.tally, hpart.received]

theorem stats (hpart : part.Closed) (h : AlikeIn part l m) :
    part.tally l.stats = part.tally m.stats := by
  unfold Ledger.stats
  cases htrace : part.trace with
  | true => rw [hpart.discarded, h.tally, (h.trace htrace).2, ← hpart.discarded]
  | false => rw [hpart.untraced htrace, h.tally, ← hpart.untraced htrace]

theorem answer (hpart : part.Closed) (h : AlikeIn part l m) {o o' : SendOutcome}
    (ho : part.Blind o o') (remote : Endpoint) (size : UInt64) :
    AlikeIn part (l.answer remote size o) (m.answer remote size o') where
  policy := by rw [answer_policy, answer_policy, h.policy]
  tally := by rw [tally_answered, tally_answered, hpart.answered, h.tally, ← hpart.answered, ho.tally]
  metrics := by
    rw [answer_metrics, answer_metrics, hpart.record, h.metrics, ← hpart.record, ho.metrics]
  log := by
    rw [answer_log, answer_log]
    simp only [List.filter_append, h.log, ho.log]
  trace htrace := by
    rw [answer_pending, answer_pending, answer_queue, answer_queue]
    exact h.trace htrace

theorem note (h : AlikeIn part l m) (entry : LogEntry) :
    AlikeIn part (l.note entry) (m.note entry) where
  policy := h.policy
  tally := h.tally
  metrics := h.metrics
  log := by simp only [Ledger.note, List.filter_append, h.log]
  trace := h.trace

theorem failure (hpart : part.Closed) (h : AlikeIn part l m) (streak : UInt32) (cause : IoFault) :
    AlikeIn part ((l.failed .receive).note (.receiveFailed streak cause))
      ((m.failed .receive).note (.receiveFailed streak cause)) where
  policy := h.policy
  tally := by
    refine (hpart.failed l.tally).trans ?_
    rw [h.tally]
    exact (hpart.failed m.tally).symm
  metrics := hpart.recordAll h.metrics [.failed .receive]
  log := by simp only [Ledger.note, failed, List.filter_append, h.log]
  trace := h.trace

theorem flush (h : AlikeIn part l m) : AlikeIn part l.flush m.flush where
  policy := h.policy
  tally := h.tally
  metrics := h.metrics
  log := h.log
  trace htrace := by
    obtain ⟨hpending, hqueue⟩ := h.trace htrace
    unfold Ledger.flush
    rw [hpending, hqueue]
    exact ⟨rfl, rfl⟩

variable [LossPolicy π]

theorem decision (hpart : part.Closed) (h : AlikeIn part l m) (limit : UInt64) (length : Nat)
    (time : Span) : l.intakeDecision limit length time = m.intakeDecision limit length time :=
  intakeDecision_congr h.policy (h.received hpart) limit length time

theorem intake (hpart : part.Closed) (h : AlikeIn part l m) (limit : UInt64) (length : Nat)
    (time : Span) : AlikeIn part (l.intake limit length time).1 (m.intake limit length time).1 where
  policy := by rw [intake_policy, intake_policy, h.decision hpart]
  tally := by
    rw [intake_tally, intake_tally, h.decision hpart]
    refine (hpart.arrived l.tally _ _ _).trans ?_
    rw [h.tally]
    exact (hpart.arrived m.tally _ _ _).symm
  metrics := by
    rw [intake_metrics, intake_metrics, h.decision hpart]
    exact hpart.recordAll h.metrics _
  log := by
    rw [intake_log, intake_log, h.decision hpart, h.received hpart]
    simp only [List.filter_append, h.log]
  trace htrace := by
    obtain ⟨hpending, hqueue⟩ := h.trace htrace
    rw [intake_pending, intake_pending, intake_queue, intake_queue, h.decision hpart, hpending]
    exact ⟨rfl, hqueue⟩

end AlikeIn

end Ledger

variable [LossPolicy π] {alike : Ledger π → Ledger π → Prop}
  {answering : List SendOutcome → List SendOutcome → Prop}

/-- **No entry in the books reads what is outside a closed part**, and an answer to a send is not
read if the part is blind to it. -/
theorem Part.Closed.likeness {part : Part} (hpart : part.Closed)
    (hblind : ∀ {os os' : List SendOutcome}, answering os os' →
      part.Blind (Session.nextOutcome os).1 (Session.nextOutcome os').1)
    (hleft : ∀ {os os' : List SendOutcome}, answering os os' →
      answering (os.drop 1) (os'.drop 1)) :
    Likeness settings (Ledger.AlikeIn (π := π) part) answering where
  verdict h length time := by rw [h.decision hpart]
  intake h length time := h.intake hpart _ length time
  answer h ho size := h.answer hpart (hblind ho) _ size
  left := hleft
  flush h := h.flush
  note h entry := h.note entry
  failure h streak cause := h.failure hpart streak cause

theorem Part.Closed.likeness_eq {part : Part} (hpart : part.Closed) :
    Likeness settings (Ledger.AlikeIn (π := π) part) Eq := by
  refine hpart.likeness ?_ ?_
  · rintro os _ rfl
    exact .refl _
  · rintro os _ rfl
    rfl

/-! ### Sessions -/

/-- Two sessions over books that are alike.  Their buffers and their counts of failures need not
agree, and the second may have made attempts before the first one began. -/
structure Session.Alike (settings : RelaySettings) (alike : Ledger π → Ledger π → Prop)
    (answering : List SendOutcome → List SendOutcome → Prop) (earlier : List Attempt)
    (s t : Session π) : Prop where
  sized : s.Sized settings
  sized' : t.Sized settings
  ledger : alike s.ledger t.ledger
  outcomes : answering s.outcomes t.outcomes
  attempts : t.attempts = earlier ++ s.attempts

namespace Session.Alike

variable {earlier : List Attempt} {s t : Session π}

/-- **A datagram does not tell them apart**, whatever failed before it. -/
theorem receive (hL : Likeness settings alike answering)
    (h : Alike settings alike answering earlier s t) (payload : List UInt8) (time : Span)
    (source : Endpoint) :
    Alike settings alike answering earlier (s.receive settings payload time source)
      (t.receive settings payload time source) := by
  have hsized := receive_sized h.sized payload time source
  have hsized' := receive_sized h.sized' payload time source
  have hverdict : (s.decision settings payload time).verdict =
      (t.decision settings payload time).verdict := hL.verdict h.ledger payload.length time
  have hheard : alike (s.heard payload source) (t.heard payload source) := by
    rw [heard_eq settings h.sized, heard_eq settings h.sized']
    exact hL.note h.ledger _
  have hintake := hL.intake hheard payload.length time
  cases hs : (s.decision settings payload time).verdict with
  | drop =>
    have ht := hverdict.symm.trans hs
    rw [receive_of_drop h.sized hs] at hsized ⊢
    rw [receive_of_drop h.sized' ht] at hsized' ⊢
    exact ⟨hsized, hsized', hL.flush hintake, h.outcomes, h.attempts⟩
  | forward =>
    have ht := hverdict.symm.trans hs
    rw [receive_of_forward h.sized hs] at hsized ⊢
    rw [receive_of_forward h.sized' ht] at hsized' ⊢
    refine ⟨hsized, hsized', hL.flush (hL.answer hintake h.outcomes _), hL.left h.outcomes, ?_⟩
    simp only [h.attempts, List.append_assoc]

/-- A failed receive does not tell them apart if as many have failed before it. -/
theorem receiveFailed (hL : Likeness settings alike answering)
    (h : Alike settings alike answering earlier s t) (hstreak : s.streak = t.streak)
    (cause : IoFault) :
    Alike settings alike answering earlier (s.receiveFailed cause) (t.receiveFailed cause) where
  sized := h.sized
  sized' := h.sized'
  ledger := by
    unfold Session.receiveFailed
    rw [hstreak]
    exact hL.failure h.ledger _ _
  outcomes := h.outcomes
  attempts := h.attempts

/-- **A run does not tell them apart**: it stops at the same delivery and for the same reason. -/
theorem run (hL : Likeness settings alike answering)
    (h : Alike settings alike answering earlier s t) (hstreak : s.streak = t.streak)
    (script : List Delivery) :
    Alike settings alike answering earlier (s.run settings script).1 (t.run settings script).1 ∧
      (s.run settings script).2 = (t.run settings script).2 := by
  induction script generalizing s t with
  | nil => exact ⟨h, rfl⟩
  | cons d rest ih =>
    cases d with
    | datagram payload time source =>
      -- a datagram resets both counts of failures
      refine ih (h.receive hL payload time source) ?_
      rw [receive_streak h.sized, receive_streak h.sized']
    | fault cause =>
      have hnext := h.receiveFailed hL hstreak cause
      have hcount : (s.receiveFailed cause).streak = (t.receiveFailed cause).streak :=
        congrArg (· + 1) hstreak
      rw [run_fault, run_fault, hcount]
      split
      · exact ⟨hnext, rfl⟩
      · exact ih hnext hcount

end Session.Alike

/-! ### Runs -/

/-- Two runs that ended in the same way over books that are alike.  Of what they return, everything
agrees that agrees in the counters. -/
structure Run.Alike (alike : Ledger π → Ledger π → Prop)
    (answering : List SendOutcome → List SendOutcome → Prop) (a b : Run π) : Prop where
  ledger : alike a.relay.ledger b.relay.ledger
  attempts : a.attempts = b.attempts
  unread : a.unread = b.unread
  outcomes : answering a.outcomes b.outcomes
  result {α : Type} (f : Tally → α) (h : f a.relay.stats = f b.relay.stats) :
    a.result.map f = b.result.map f

/-- **Relays whose books are alike run alike.** -/
theorem Relay.run_alike (hL : Likeness settings alike answering)
    (hvalid : settings.validate = .ok ()) {l m : Ledger π} (h : alike l m)
    {os os' : List SendOutcome} (ho : answering os os') (script : List Delivery) :
    Run.Alike alike answering (Relay.run ⟨settings, l⟩ script os)
      (Relay.run ⟨settings, m⟩ script os') := by
  have hstart : Session.Alike settings alike answering [] (Relay.session ⟨settings, l⟩ os)
      (Relay.session ⟨settings, m⟩ os') :=
    ⟨session_sized hvalid os, session_sized hvalid os', h, ho, rfl⟩
  obtain ⟨hend, hrest⟩ := hstart.run hL rfl script
  refine ⟨hend.ledger, hend.attempts.symm, congrArg Prod.fst hrest, hend.outcomes, ?_⟩
  intro α f hstats
  have hending := congrArg Prod.snd hrest
  unfold Relay.run at hstats ⊢
  dsimp only at hstats ⊢
  rw [hending]
  cases ((Relay.session ⟨settings, m⟩ os').run settings script).2.2 with
  | error e => exact rfl
  | ok _ => exact congrArg Except.ok hstats

/-! ### Histories -/

/-- Two relays between their runs, with the same settings and deliveries, over books and answers
that are alike. -/
structure Service.Alike (settings : RelaySettings) (alike : Ledger π → Ledger π → Prop)
    (answering : List SendOutcome → List SendOutcome → Prop) (v w : Service π) : Prop where
  fit : v.relay.settings = settings
  fit' : w.relay.settings = settings
  ledger : alike v.relay.ledger w.relay.ledger
  unread : v.unread = w.unread
  outcomes : answering v.outcomes w.outcomes

/-- Two turns that bring the same deliveries, and that keep the answers and the books alike. -/
structure Turn.Alike (alike : Ledger π → Ledger π → Prop)
    (answering : List SendOutcome → List SendOutcome → Prop) (t u : Turn) : Prop where
  deliveries : t.deliveries = u.deliveries
  outcomes {os os' : List SendOutcome} (ho : answering os os') :
    answering (os ++ t.outcomes) (os' ++ u.outcomes)
  readings {l m : Ledger π} (h : alike l m) :
    alike { l with queue := (l.queue.reactAll t.readings).1 }
      { m with queue := (m.queue.reactAll u.readings).1 }

namespace Service.Alike

variable {v w : Service π}

theorem episode (hL : Likeness settings alike answering) (hvalid : settings.validate = .ok ())
    (h : Alike settings alike answering v w) {t u : Turn} (ht : Turn.Alike alike answering t u) :
    (v.episode t).script = (w.episode u).script ∧
      Run.Alike alike answering (v.episode t).run (w.episode u).run := by
  obtain ⟨⟨vs, vl⟩, vunread, voutcomes⟩ := v
  obtain ⟨⟨ws, wl⟩, wunread, woutcomes⟩ := w
  obtain ⟨rfl, hsettings, hledger, hunread, houtcomes⟩ := h
  dsimp only at hsettings hledger hunread houtcomes
  subst hsettings hunread
  unfold Service.episode
  dsimp only
  rw [ht.deliveries]
  exact ⟨rfl, Relay.run_alike hL hvalid hledger (ht.outcomes houtcomes) _⟩

theorem next (hL : Likeness settings alike answering) (hvalid : settings.validate = .ok ())
    (h : Alike settings alike answering v w) {t u : Turn} (ht : Turn.Alike alike answering t u) :
    Alike settings alike answering (v.next t) (w.next u) := by
  obtain ⟨-, hrun⟩ := h.episode hL hvalid ht
  exact ⟨h.fit, h.fit', ht.readings hrun.ledger, hrun.unread, hrun.outcomes⟩

/-- **Any number of runs leaves them alike.** -/
theorem serveAll (hL : Likeness settings alike answering) (hvalid : settings.validate = .ok ())
    (h : Alike settings alike answering v w) {ts us : List Turn}
    (hts : List.Forall₂ (Turn.Alike alike answering) ts us) :
    Alike settings alike answering (v.serveAll ts).2 (w.serveAll us).2 := by
  induction hts generalizing v w with
  | nil => exact h
  | cons ht _ ih => exact ih (h.next hL hvalid ht)

end Service.Alike

end LossRelay
