import LossRelay.Proofs.Relay.Passage

/-!
# The history of a relay

A relay runs any number of times.  Before a run more deliveries and more answers may come to its
socket, where the unread deliveries and the unused answers of earlier runs still wait; after it the
reader of the trace may act.  `Service.serveAll` is such a history, with one `Episode` for each run,
and `serveAll_passage` carries `Passage` from single deliveries to all of it.
-/

namespace LossRelay

/-! ### The reader of the trace -/

/-- What the reader of a trace queue can do. -/
inductive Reading where
  | take (most : Nat)
  | close
  deriving DecidableEq

/-- The reader acts: the queue after it, and the events taken. -/
def TraceQueue.react (q : TraceQueue) : Reading → TraceQueue × List TraceEvent
  | .take most => q.take most
  | .close => (q.close, [])

def TraceQueue.reactAll (q : TraceQueue) : List Reading → TraceQueue × List TraceEvent
  | [] => (q, [])
  | r :: rs => (((q.react r).1.reactAll rs).1, (q.react r).2 ++ ((q.react r).1.reactAll rs).2)

/-! ### Histories -/

/-- What comes to the socket before a run, and what the reader of the trace does after it. -/
structure Turn where
  deliveries : List Delivery
  outcomes : List SendOutcome := []
  readings : List Reading := []
  deriving DecidableEq

/-- A relay between its runs, with what waits in its socket. -/
structure Service (π : Type) where
  relay : Relay π
  unread : List Delivery := []
  outcomes : List SendOutcome := []

/-- A run with what waited in the socket at its start, and the events that were taken after it. -/
structure Episode (π : Type) where
  script : List Delivery
  outcomes : List SendOutcome
  run : Run π
  taken : List TraceEvent

namespace Episode

variable {π : Type}

/-- The deliveries that a run has read. -/
def read (e : Episode π) : List Delivery := e.script.take (e.script.length - e.run.unread.length)

theorem read_eq {e : Episode π} {read : List Delivery} (h : e.script = read ++ e.run.unread) :
    e.read = read := by
  unfold Episode.read
  rw [h, List.length_append, Nat.add_sub_cancel, List.take_left]

/-- The attempts of a run, each with its answer. -/
def answers (e : Episode π) : List (Attempt × SendOutcome) := answered e.outcomes e.run.attempts

end Episode

namespace Relay

variable {π : Type}

def withQueue (r : Relay π) (queue : TraceQueue) : Relay π :=
  { r with ledger := { r.ledger with queue } }

/-- A relay that has not run yet, over a socket where nothing waits. -/
def start (r : Relay π) : Service π := { relay := r }

end Relay

namespace Service

variable {π : Type} [LossPolicy π]

/-- The next run. -/
def episode (v : Service π) (t : Turn) : Episode π where
  script := v.unread ++ t.deliveries
  outcomes := v.outcomes ++ t.outcomes
  run := v.relay.run (v.unread ++ t.deliveries) (v.outcomes ++ t.outcomes)
  taken := ((v.relay.run (v.unread ++ t.deliveries)
    (v.outcomes ++ t.outcomes)).relay.ledger.queue.reactAll t.readings).2

/-- What the next run leaves behind. -/
def next (v : Service π) (t : Turn) : Service π :=
  let run := (v.episode t).run
  { relay := run.relay.withQueue (run.relay.ledger.queue.reactAll t.readings).1
    unread := run.unread
    outcomes := run.outcomes }

/-- All runs in order, and what the last one leaves behind. -/
def serveAll (v : Service π) : List Turn → List (Episode π) × Service π
  | [] => ([], v)
  | t :: ts => (v.episode t :: ((v.next t).serveAll ts).1, ((v.next t).serveAll ts).2)

end Service

/-! ### Settings that are fit -/

theorem RelaySettings.limits_of_validate {settings : RelaySettings}
    (h : settings.validate = .ok ()) :
    settings.payloadLimit.toNat ≤ 65535 ∧ 0 < settings.errorLimit.toNat := by
  unfold validate at h
  split at h
  · cases h
  · rename_i hlimit
    split at h
    · cases h
    · split at h
      · cases h
      · rename_i herror
        rw [not_or, UInt64.not_lt, UInt64.le_iff_toNat_le] at hlimit
        refine ⟨hlimit.2, Nat.pos_of_ne_zero fun h0 => herror ?_⟩
        rwa [← UInt32.toNat_inj]

namespace Relay

variable {π : Type} [LossPolicy π]

/-- A relay that could be set up has fit settings and empty books. -/
theorem eq_of_onSocket {settings : RelaySettings} {policy : π} {queue : TraceQueue} {r : Relay π}
    (h : onSocket settings policy queue = .ok r) :
    settings.validate = .ok () ∧ r = ⟨settings, .fresh policy queue⟩ := by
  unfold onSocket at h
  split at h
  · cases h
  · rename_i hs
    split at h
    · cases h
    · exact ⟨hs, (Except.ok.inj h).symm⟩

omit [LossPolicy π] in
theorem session_sized {r : Relay π} (h : r.settings.validate = .ok ())
    (outcomes : List SendOutcome) : (r.session outcomes).Sized r.settings := by
  have hlimit := (RelaySettings.limits_of_validate h).1
  exact ⟨List.length_replicate, by omega⟩

/-! ### One run -/

theorem run_of_session {r : Relay π} {script unread : List Delivery} {outcomes : List SendOutcome}
    {s : Session π} {ending : Except RelayError Unit}
    (h : (r.session outcomes).run r.settings script = (s, unread, ending)) :
    r.run script outcomes =
      { relay := { r with ledger := s.ledger }
        attempts := s.attempts
        unread
        outcomes := s.outcomes
        result := ending.map fun _ => s.ledger.stats } := by
  unfold run
  rw [h]

/-- **A run carries the deliveries it reads**, and reads a first part of its script. -/
theorem run_carried {r : Relay π} (h : r.settings.validate = .ok ()) (script : List Delivery)
    (outcomes : List SendOutcome) :
    ∃ read, script = read ++ (r.run script outcomes).unread ∧
      (r.run script outcomes).outcomes = outcomes.drop (r.run script outcomes).attempts.length ∧
      Passage r.settings read (answered outcomes (r.run script outcomes).attempts) r.ledger
        (r.run script outcomes).relay.ledger ∧
      (r.ledger.pending = [] → (r.run script outcomes).relay.ledger.pending = [] ∧
        (r.run script outcomes).relay.ledger.queue =
          r.ledger.queue.emitAll (r.ledger.events r.settings read)) := by
  obtain ⟨read, hscript, hend⟩ := Session.run_reads r.settings (r.session outcomes) script
  obtain ⟨new, hread⟩ := Session.handleAll_carried (session_sized h outcomes) read
  rw [← hend] at hread
  have hnew : (r.run script outcomes).attempts = new := hread.attempts
  refine ⟨read, hscript, ?_, ?_, hread.traced⟩
  · rw [hnew]
    exact hread.outcomes
  · rw [hnew]
    exact hread.passage

end Relay

/-! ### All runs -/

namespace Service

variable {π : Type} [LossPolicy π]

theorem next_passage {v : Service π} (h : v.relay.settings.validate = .ok ()) (t : Turn) :
    v.unread ++ t.deliveries = (v.episode t).read ++ (v.next t).unread ∧
      Passage v.relay.settings (v.episode t).read (v.episode t).answers v.relay.ledger
        (v.next t).relay.ledger := by
  obtain ⟨read, hscript, -, hpassage, -⟩ :=
    Relay.run_carried h (v.unread ++ t.deliveries) (v.outcomes ++ t.outcomes)
  have hread : (v.episode t).read = read := Episode.read_eq hscript
  rw [hread]
  exact ⟨hscript, hpassage.policy, hpassage.attempts, hpassage.tally⟩

/-- **Any number of runs is one passage** of all deliveries that they read, in order. -/
theorem serveAll_passage {v : Service π} (h : v.relay.settings.validate = .ok ())
    (ts : List Turn) :
    v.unread ++ ts.flatMap (·.deliveries) =
        (v.serveAll ts).1.flatMap Episode.read ++ (v.serveAll ts).2.unread ∧
      Passage v.relay.settings ((v.serveAll ts).1.flatMap Episode.read)
        ((v.serveAll ts).1.flatMap Episode.answers) v.relay.ledger
        (v.serveAll ts).2.relay.ledger := by
  induction ts generalizing v with
  | nil => exact ⟨List.append_nil _, Passage.refl _⟩
  | cons t ts ih =>
    obtain ⟨hread, hpassage⟩ := next_passage h t
    obtain ⟨hrest, hpassages⟩ := ih (v := v.next t) h
    refine ⟨?_, hpassage.trans hpassages⟩
    rw [List.flatMap_cons, ← List.append_assoc, hread, List.append_assoc, hrest,
      ← List.append_assoc]
    rfl

theorem settings_serveAll (v : Service π) (ts : List Turn) :
    (v.serveAll ts).2.relay.settings = v.relay.settings := by
  induction ts generalizing v with
  | nil => rfl
  | cons t ts ih => exact ih (v.next t)

end Service

end LossRelay
