import LossRelay.Proofs.Relay.GivingUp
import LossRelay.Proofs.Trace.Losses

/-!
# Moments of a run

A history of runs is seen at any moment: some runs are over, and the next one has read a part of
what it will read (`Service.during`).  At every moment the books have come from the start by one
passage of all deliveries read (`during_passage`), the counter of failures in a row is the number
of failures at the end of the part (`streak_during`), and the trace queue has made the moves that
the events of the policy and the reader make up (`queue_during`).
-/

namespace LossRelay

variable {π : Type} [LossPolicy π] {settings : RelaySettings}

/-! ### Streaks in a part of a run -/

theorem HasStreak.of_prefix {m : Nat} {a b : List Delivery} (h : HasStreak m a) (hab : a <+: b) :
    HasStreak m b := by
  obtain ⟨causes, hlen, ha⟩ := h
  exact ⟨causes, hlen, ha.trans hab.isInfix⟩

theorem dropLast_prefix_dropLast {a b : List Delivery} (h : a <+: b) :
    a.dropLast <+: b.dropLast := by
  obtain ⟨rest, rfl⟩ := h
  by_cases hrest : rest = []
  · rw [hrest, List.append_nil]
  · rw [List.dropLast_append_of_ne_nil hrest]
    exact a.dropLast_prefix.trans (List.prefix_append _ _)

/-- Without a streak before the last delivery there are no more failures at the end than a streak
has. -/
theorem trailing_le {m : Nat} {part : List Delivery} (h : ¬ HasStreak m part.dropLast) :
    trailing part ≤ m := by
  rcases List.eq_nil_or_concat' part with rfl | ⟨init, d, rfl⟩
  · exact Nat.zero_le m
  · rw [List.dropLast_concat] at h
    cases d with
    | datagram payload time source =>
      rw [trailing_concat_datagram]
      exact Nat.zero_le m
    | fault cause =>
      rw [trailing_concat_fault]
      exact trailing_lt h

namespace Session

theorem handleAll_concat (s : Session π) (part : List Delivery) (d : Delivery) :
    s.handleAll settings (part ++ [d]) = (s.handleAll settings part).handle settings d := by
  unfold handleAll
  rw [List.foldl_append]
  rfl

theorem handleAll_watched {s : Session π} {start : List LogEntry}
    (h : s.Watched settings start []) {part : List Delivery}
    (hcalm : ¬ HasStreak settings.errorLimit.toNat part.dropLast) :
    (s.handleAll settings part).Watched settings start part := by
  induction part using List.reverseRecOn with
  | nil => exact h
  | append_singleton part d ih =>
    rw [List.dropLast_concat] at hcalm
    have hpart := ih fun hstreak => hcalm (hstreak.of_prefix part.dropLast_prefix)
    have hroom : trailing part + 1 < 2 ^ 32 :=
      Nat.lt_of_le_of_lt (trailing_lt hcalm) settings.errorLimit.toNat_lt
    rw [handleAll_concat]
    exact handle_watched hpart hroom d

end Session

namespace Service

variable {v : Service π}

/-! ### A moment of the next run -/

/-- The session of the next run when it has read a part of its script. -/
def during (v : Service π) (t : Turn) (part : List Delivery) : Session π :=
  (v.relay.session (v.outcomes ++ t.outcomes)).handleAll v.relay.settings part

/-- When the run has read all that it reads, its books and attempts are those of its end. -/
theorem during_read (v : Service π) (t : Turn) :
    (v.during t (v.episode t).read).ledger = (v.episode t).run.relay.ledger ∧
      (v.during t (v.episode t).read).attempts = (v.episode t).run.attempts := by
  obtain ⟨read, hscript, hend⟩ := Session.run_reads v.relay.settings
    (v.relay.session (v.outcomes ++ t.outcomes)) (v.unread ++ t.deliveries)
  have hread : (v.episode t).read = read := Episode.read_eq hscript
  unfold during
  rw [hread, ← hend]
  exact ⟨rfl, rfl⟩

theorem calm_episode (h : v.relay.settings.validate = .ok ()) (t : Turn) :
    ¬ HasStreak v.relay.settings.errorLimit.toNat (v.episode t).read.dropLast := by
  have hm := (RelaySettings.limits_of_validate h).2
  obtain ⟨read, hscript, -, hend⟩ := Session.run_watched hm
    (Relay.session_watched h (v.outcomes ++ t.outcomes)) (not_hasStreak_nil hm)
    (v.unread ++ t.deliveries)
  have hread : (v.episode t).read = read := Episode.read_eq hscript
  rw [hread]
  rw [List.nil_append] at hend
  rcases hend with ⟨-, -, hcalm⟩ | ⟨-, hcalm, -⟩
  · exact fun hstreak => hcalm (hstreak.of_prefix read.dropLast_prefix)
  · exact hcalm

/-- **The counter of failures in a row** is at every moment the number of failures at the end of
what the run has read, and not more than the settings allow. -/
theorem streak_during (h : v.relay.settings.validate = .ok ()) (t : Turn) {part : List Delivery}
    (hpart : part <+: (v.episode t).read) :
    (v.during t part).streak.toNat = trailing part ∧
      trailing part ≤ v.relay.settings.errorLimit.toNat := by
  have hcalm : ¬ HasStreak v.relay.settings.errorLimit.toNat part.dropLast := fun hstreak =>
    calm_episode h t (hstreak.of_prefix (dropLast_prefix_dropLast hpart))
  have hwatched :=
    Session.handleAll_watched (Relay.session_watched h (v.outcomes ++ t.outcomes)) hcalm
  exact ⟨hwatched.streak, trailing_le hcalm⟩

/-! ### A moment of a history -/

/-- The deliveries read up to a moment: those of the runs that are over, and a part of the next. -/
def readUntil (v : Service π) (ts : List Turn) (part : List Delivery) : List Delivery :=
  (v.serveAll ts).1.flatMap Episode.read ++ part

/-- The attempts up to a moment, each with its answer. -/
def answersUntil (v : Service π) (ts : List Turn) (t : Turn) (part : List Delivery) :
    List (Attempt × SendOutcome) :=
  (v.serveAll ts).1.flatMap Episode.answers ++
    answered ((v.serveAll ts).2.outcomes ++ t.outcomes) ((v.serveAll ts).2.during t part).attempts

/-- **Every moment is reached by one passage** of all deliveries read until then. -/
theorem during_passage (h : v.relay.settings.validate = .ok ()) (ts : List Turn) (t : Turn)
    (part : List Delivery) :
    Passage v.relay.settings (v.readUntil ts part) (v.answersUntil ts t part) v.relay.ledger
      ((v.serveAll ts).2.during t part).ledger := by
  obtain ⟨-, hpast⟩ := serveAll_passage h ts
  have hset := settings_serveAll v ts
  have hlast : (v.serveAll ts).2.relay.settings.validate = .ok () := hset ▸ h
  obtain ⟨new, hnow⟩ := Session.handleAll_carried
    (Relay.session_sized hlast ((v.serveAll ts).2.outcomes ++ t.outcomes)) part
  have hattempts : ((v.serveAll ts).2.during t part).attempts = new := hnow.attempts
  have hpassage : Passage (v.serveAll ts).2.relay.settings part
      (answered ((v.serveAll ts).2.outcomes ++ t.outcomes) new) (v.serveAll ts).2.relay.ledger
      ((v.serveAll ts).2.during t part).ledger := hnow.passage
  rw [hset] at hpassage
  unfold answersUntil
  rw [hattempts]
  exact hpast.trans hpassage

/-! ### The trace queue -/

/-- The moves of the trace queue over a history: the events of each run are offered, and then the
reader acts. -/
def queueMoves (v : Service π) : List Turn → List QueueMove
  | [] => []
  | t :: ts =>
    (v.relay.ledger.events v.relay.settings (v.episode t).read).map .offer ++
      t.readings.map .reading ++ (v.next t).queueMoves ts

def queueMovesUntil (v : Service π) (ts : List Turn) (part : List Delivery) : List QueueMove :=
  v.queueMoves ts ++ ((v.serveAll ts).2.relay.ledger.events v.relay.settings part).map .offer

theorem queue_serveAll (h : v.relay.settings.validate = .ok ())
    (hp : v.relay.ledger.pending = []) (ts : List Turn) :
    (v.serveAll ts).2.relay.ledger.queue = v.relay.ledger.queue.moveAll (v.queueMoves ts) := by
  induction ts generalizing v with
  | nil => rfl
  | cons t ts ih =>
    obtain ⟨read, hscript, -, -, htraced⟩ :=
      Relay.run_carried h (v.unread ++ t.deliveries) (v.outcomes ++ t.outcomes)
    have hread : (v.episode t).read = read := Episode.read_eq hscript
    obtain ⟨hnone, hqueue⟩ := htraced hp
    have hnext : (v.next t).relay.ledger.queue =
        (v.relay.ledger.queue.moveAll ((v.relay.ledger.events v.relay.settings
          (v.episode t).read).map .offer)).moveAll (t.readings.map .reading) := by
      rw [TraceQueue.moveAll_readings, TraceQueue.moveAll_offers, hread, ← hqueue]
      rfl
    have hrest : ((v.next t).serveAll ts).2.relay.ledger.queue =
        (v.next t).relay.ledger.queue.moveAll ((v.next t).queueMoves ts) :=
      ih (v := v.next t) h hnone
    rw [queueMoves, TraceQueue.moveAll_append, TraceQueue.moveAll_append, ← hnext, ← hrest]
    rfl

theorem filterMap_offered_offers (es : List TraceEvent) :
    (es.map QueueMove.offer).filterMap QueueMove.offered? = es := by
  rw [List.filterMap_map]
  exact List.filterMap_some

theorem filterMap_offered_readings (acts : List Reading) :
    (acts.map QueueMove.reading).filterMap QueueMove.offered? = [] := by
  rw [List.filterMap_map, List.filterMap_eq_nil_iff]
  exact fun _ _ => rfl

theorem offered_queueMoves (h : v.relay.settings.validate = .ok ()) (ts : List Turn) :
    (v.queueMoves ts).filterMap QueueMove.offered? =
      v.relay.ledger.events v.relay.settings ((v.serveAll ts).1.flatMap Episode.read) := by
  induction ts generalizing v with
  | nil => rfl
  | cons t ts ih =>
    have hrest : ((v.next t).queueMoves ts).filterMap QueueMove.offered? =
        (v.next t).relay.ledger.events v.relay.settings
          (((v.next t).serveAll ts).1.flatMap Episode.read) := ih (v := v.next t) h
    have hread : (v.serveAll (t :: ts)).1.flatMap Episode.read =
        (v.episode t).read ++ ((v.next t).serveAll ts).1.flatMap Episode.read := List.flatMap_cons
    rw [queueMoves, List.filterMap_append, List.filterMap_append, filterMap_offered_offers,
      filterMap_offered_readings, List.append_nil, hrest, hread,
      (next_passage h t).2.events_append]

/-- **The trace queue at a moment** has made the moves until then. -/
theorem queue_during (h : v.relay.settings.validate = .ok ()) (hp : v.relay.ledger.pending = [])
    (ts : List Turn) (t : Turn) (part : List Delivery) :
    ((v.serveAll ts).2.during t part).ledger.queue =
      v.relay.ledger.queue.moveAll (v.queueMovesUntil ts part) := by
  have hset := settings_serveAll v ts
  have hlast : (v.serveAll ts).2.relay.settings.validate = .ok () := hset ▸ h
  obtain ⟨new, hnow⟩ := Session.handleAll_carried
    (Relay.session_sized hlast ((v.serveAll ts).2.outcomes ++ t.outcomes)) part
  have hqueue := (hnow.traced (pending_serveAll h hp ts)).2
  unfold queueMovesUntil
  rw [TraceQueue.moveAll_append, ← queue_serveAll h hp, TraceQueue.moveAll_offers, ← hset]
  exact hqueue

theorem offered_queueMovesUntil (h : v.relay.settings.validate = .ok ()) (ts : List Turn)
    (part : List Delivery) :
    (v.queueMovesUntil ts part).filterMap QueueMove.offered? =
      v.relay.ledger.events v.relay.settings (v.readUntil ts part) := by
  unfold queueMovesUntil readUntil
  rw [List.filterMap_append, offered_queueMoves h, filterMap_offered_offers,
    (serveAll_passage h ts).2.events_append]

/-- The counter of the trace queue at a moment has grown by the number of events lost, as long as all
events of the policy can be counted. -/
theorem toNat_discarded_during (h : v.relay.settings.validate = .ok ())
    (hp : v.relay.ledger.pending = []) (ts : List Turn) (t : Turn) (part : List Delivery)
    (hroom : v.relay.ledger.queue.discarded.toNat +
      (v.relay.ledger.events v.relay.settings (v.readUntil ts part)).length < 2 ^ 64) :
    ((v.serveAll ts).2.during t part).ledger.queue.discarded.toNat =
      v.relay.ledger.queue.discarded.toNat +
        (v.relay.ledger.queue.losses (v.queueMovesUntil ts part)).length := by
  rw [← offered_queueMovesUntil h] at hroom
  rw [queue_during h hp, TraceQueue.toNat_discarded_moveAll hroom]

end Service

end LossRelay
