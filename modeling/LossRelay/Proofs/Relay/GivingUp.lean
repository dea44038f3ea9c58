import LossRelay.Policy.Index
import LossRelay.Proofs.Relay.History
import LossRelay.Proofs.Relay.Streaks

/-!
# Giving up

A run gives up on its socket exactly if its script contains as many failed receives in a row as the
settings allow, and then right after the last failure of the first such streak.  The counter of the
loop is the number of failures at the end of what it has read; `Watched` is this invariant, which
every delivery keeps (`handle_watched`), and `run_watched` is the end of a run that follows.
-/

namespace LossRelay

/-- The position in its streak and the cause of a failed receive that is logged. -/
def LogEntry.warning? : LogEntry → Option (Nat × IoFault)
  | .receiveFailed streak cause => some (streak.toNat, cause)
  | _ => none

/-- What a log says of failed receives, with the level at which it does. -/
def warnings (log : List LogEntry) : List (LogLevel × String) :=
  (log.filter (·.warning?.isSome)).map fun entry => (entry.level, entry.message)

/-- The text of a warning shows the position of the failure and its cause. -/
theorem warnings_eq (log : List LogEntry) :
    warnings log = (log.filterMap LogEntry.warning?).map fun (position, cause) =>
      (.warn, "Receive failed (" ++ toString position ++ " in a row): " ++ cause.message) := by
  unfold warnings
  induction log with
  | nil => rfl
  | cons entry log ih =>
    cases entry with
    | receiveFailed streak cause => exact congrArg (_ :: ·) ih
    | _ => exact ih

namespace Session

variable {π : Type} [LossPolicy π] {settings : RelaySettings} {s : Session π}

/-! ### The counter of failures -/

/-- What the loop knows after some deliveries: its counter is the number of failures at their end,
and each failure has been logged with its position in its streak, after the log at the start. -/
structure Watched (settings : RelaySettings) (start : List LogEntry) (handled : List Delivery)
    (s : Session π) : Prop where
  sized : s.Sized settings
  streak : s.streak.toNat = trailing handled
  warned : ∃ entries, s.ledger.log = start ++ entries ∧
    entries.filterMap LogEntry.warning? = positioned handled

theorem warnings_answerEntries (remote : Endpoint) (size : UInt64) (o : SendOutcome) :
    (Ledger.answerEntries remote size o).filterMap LogEntry.warning? = [] := by
  apply List.filterMap_eq_nil_iff.mpr
  intro entry hentry
  obtain ⟨_, rfl⟩ | ⟨_, rfl⟩ := Ledger.of_mem_answerEntries hentry <;> rfl

theorem receive_warnings (hs : s.Sized settings) (payload : List UInt8) (time : Span)
    (source : Endpoint) :
    ∃ entries, (s.receive settings payload time source).ledger.log = s.ledger.log ++ entries ∧
      entries.filterMap LogEntry.warning? = [] := by
  have hlog := receive_log hs payload time source
  rw [heard_log, List.append_assoc, List.append_assoc] at hlog
  refine ⟨_, hlog, ?_⟩
  rw [List.filterMap_append, List.filterMap_append, List.append_eq_nil_iff, List.append_eq_nil_iff]
  refine ⟨rfl, ?_, ?_⟩
  · split <;> rfl
  · split
    · exact warnings_answerEntries ..
    · rfl

/-- **Every delivery keeps the counter right.** -/
theorem handle_watched {start : List LogEntry} {handled : List Delivery}
    (h : s.Watched settings start handled) (hroom : trailing handled + 1 < 2 ^ 32) (d : Delivery) :
    (s.handle settings d).Watched settings start (handled ++ [d]) := by
  obtain ⟨hs, hstreak, entries, hlog, hwarned⟩ := h
  cases d with
  | datagram payload time source =>
    obtain ⟨more, hmore, hnone⟩ := receive_warnings hs payload time source
    refine ⟨receive_sized hs payload time source, ?_, entries ++ more, ?_, ?_⟩
    · rw [trailing_concat_datagram]
      exact congrArg UInt32.toNat (receive_streak hs payload time source)
    · rw [← List.append_assoc, ← hlog]
      exact hmore
    · rw [List.filterMap_append, hnone, hwarned, positioned_concat_datagram, List.append_nil]
  | fault cause =>
    have hnext : (s.streak + 1).toNat = trailing handled + 1 := by
      rw [UInt32.toNat_add, hstreak]
      exact Nat.mod_eq_of_lt hroom
    refine ⟨hs, ?_, entries ++ [.receiveFailed (s.streak + 1) cause], ?_, ?_⟩
    · rw [trailing_concat_fault]
      exact hnext
    · rw [← List.append_assoc, ← hlog]
      rfl
    · rw [List.filterMap_append, hwarned, positioned_concat_fault, ← hnext]
      rfl

/-! ### The end of a run -/

/-- A run that comes to the end of its script. -/
structure Finished (settings : RelaySettings) (handled : List Delivery)
    (run : Session π × List Delivery × Except RelayError Unit) : Prop where
  ending : run.2.2 = .ok ()
  unread : run.2.1 = []
  calm : ¬ HasStreak settings.errorLimit.toNat handled

/-- A run that gives up: the streak that ends what it has read is the first one. -/
structure GaveUp (settings : RelaySettings) (handled : List Delivery)
    (run : Session π × List Delivery × Except RelayError Unit) : Prop where
  streak : trailing handled = settings.errorLimit.toNat
  calm : ¬ HasStreak settings.errorLimit.toNat handled.dropLast
  ending : ∃ cause, handled.getLast? = some (.fault cause) ∧
    run.2.2 = .error (.socketUnusable settings.errorLimit cause)

/-- **The end of a run.**  From a script without a streak on, a run comes to its end without one, or
gives up at the end of the first one. -/
theorem run_watched (hm : 0 < settings.errorLimit.toNat) {start : List LogEntry}
    {handled : List Delivery} (h : s.Watched settings start handled)
    (hcalm : ¬ HasStreak settings.errorLimit.toNat handled) (script : List Delivery) :
    ∃ read, script = read ++ (s.run settings script).2.1 ∧
      (s.run settings script).1.Watched settings start (handled ++ read) ∧
      (Finished settings (handled ++ read) (s.run settings script) ∨
        GaveUp settings (handled ++ read) (s.run settings script)) := by
  induction script generalizing s handled with
  | nil =>
    rw [← List.append_nil handled] at h hcalm
    exact ⟨[], rfl, h, Or.inl ⟨rfl, rfl, hcalm⟩⟩
  | cons d rest ih =>
    have hbelow := trailing_lt hcalm
    have hroom : trailing handled + 1 < 2 ^ 32 :=
      Nat.lt_of_le_of_lt hbelow settings.errorLimit.toNat_lt
    have hnext := handle_watched h hroom d
    -- what the rest of the run does, if the delivery did not end it
    have hgo (hcalm' : ¬ HasStreak settings.errorLimit.toNat (handled ++ [d]))
        (hrun : s.run settings (d :: rest) = (s.handle settings d).run settings rest) :
        ∃ read, d :: rest = read ++ (s.run settings (d :: rest)).2.1 ∧
          (s.run settings (d :: rest)).1.Watched settings start (handled ++ read) ∧
          (Finished settings (handled ++ read) (s.run settings (d :: rest)) ∨
            GaveUp settings (handled ++ read) (s.run settings (d :: rest))) := by
      obtain ⟨read, hread, hrest⟩ := ih hnext hcalm'
      rw [← List.append_cons, ← hrun] at hrest
      exact ⟨d :: read, by rw [hrun]; exact congrArg (d :: ·) hread, hrest⟩
    cases d with
    | datagram payload time source =>
      refine hgo (fun hstreak => ?_) rfl
      rcases hasStreak_concat.mp hstreak with hle | hold
      · rw [trailing_concat_datagram] at hle
        omega
      · exact hcalm hold
    | fault cause =>
      have hcount := hnext.streak
      by_cases hlimit : settings.errorLimit ≤ (s.receiveFailed cause).streak
      · -- the failure that ends the first streak
        have hrun : s.run settings (.fault cause :: rest) = (s.receiveFailed cause, rest,
            .error (.socketUnusable (s.receiveFailed cause).streak cause)) := if_pos hlimit
        have htrail : trailing (handled ++ [.fault cause]) = settings.errorLimit.toNat := by
          have hle := UInt32.le_iff_toNat_le.mp hlimit
          have heq : (s.receiveFailed cause).streak.toNat =
            trailing (handled ++ [.fault cause]) := hcount
          rw [trailing_concat_fault] at heq ⊢
          omega
        have hfailures : (s.receiveFailed cause).streak = settings.errorLimit :=
          UInt32.toNat_inj.mp (hcount.trans htrail)
        rw [hrun, hfailures]
        refine ⟨[.fault cause], rfl, hnext, Or.inr ⟨htrail, ?_, cause, by simp, rfl⟩⟩
        rw [List.dropLast_concat]
        exact hcalm
      · refine hgo (fun hstreak => ?_) (if_neg hlimit)
        rcases hasStreak_concat.mp hstreak with hle | hold
        · rw [← hcount] at hle
          exact hlimit (UInt32.le_iff_toNat_le.mpr hle)
        · exact hcalm hold

end Session

/-! ### One run of a relay -/

/-- A streak at the end of what was read, taken apart at its last failure. -/
theorem exists_streak_at_end {m : Nat} (hm : 0 < m) {read : List Delivery} {cause : IoFault}
    (hstreak : trailing read = m) (hlast : read.getLast? = some (.fault cause)) :
    ∃ calm causes, read = calm ++ (causes ++ [cause]).map Delivery.fault ∧
      causes.length + 1 = m ∧ read.dropLast = calm ++ causes.map Delivery.fault := by
  obtain ⟨causes, hlen, calm, rfl⟩ := exists_suffix_iff.mpr (Nat.le_of_eq hstreak.symm)
  rcases List.eq_nil_or_concat' causes with rfl | ⟨init, last, rfl⟩
  · rw [List.length_nil] at hlen
    omega
  · rw [List.map_append, List.map_singleton, ← List.append_assoc, List.getLast?_concat] at hlast
    obtain rfl : last = cause := Delivery.fault.inj (Option.some.inj hlast)
    refine ⟨calm, init, rfl, by simpa using hlen, ?_⟩
    rw [List.map_append, List.map_singleton, ← List.append_assoc, List.dropLast_concat]

namespace Relay

variable {π : Type} [LossPolicy π]

omit [LossPolicy π] in
theorem session_watched {r : Relay π} (h : r.settings.validate = .ok ())
    (outcomes : List SendOutcome) :
    (r.session outcomes).Watched r.settings r.ledger.log [] :=
  ⟨session_sized h outcomes, rfl, [], (List.append_nil _).symm, rfl⟩

theorem session_run_of_calm {r : Relay π} (h : r.settings.validate = .ok ())
    {script : List Delivery} (hcalm : ¬ HasStreak r.settings.errorLimit.toNat script)
    (outcomes : List SendOutcome) :
    (r.session outcomes).run r.settings script =
        ((r.session outcomes).handleAll r.settings script, [], .ok ()) ∧
      ((r.session outcomes).handleAll r.settings script).Watched r.settings r.ledger.log script := by
  have hm := (RelaySettings.limits_of_validate h).2
  obtain ⟨read, hread, hwatched, hend⟩ := Session.run_watched hm (session_watched h outcomes)
    (not_hasStreak_nil hm) script
  obtain ⟨read', hread', hhandled⟩ := Session.run_reads r.settings (r.session outcomes) script
  rw [List.nil_append] at hwatched hend
  rcases hend with ⟨hok, hunread, -⟩ | ⟨hstreak, -, -⟩
  · rw [hunread, List.append_nil] at hread hread'
    rw [← hread'] at hhandled
    rw [← hread, hhandled] at hwatched
    exact ⟨Prod.ext hhandled (Prod.ext hunread hok), hwatched⟩
  · -- the streak that ends the run would stand in the script
    obtain ⟨causes, hlen, hsuffix⟩ := exists_suffix_iff.mpr (Nat.le_of_eq hstreak.symm)
    refine absurd ⟨causes, hlen, ?_⟩ hcalm
    rw [hread]
    exact hsuffix.isInfix.trans (List.prefix_append _ _).isInfix

theorem run_of_calm {r : Relay π} (h : r.settings.validate = .ok ()) {script : List Delivery}
    (hcalm : ¬ HasStreak r.settings.errorLimit.toNat script) (outcomes : List SendOutcome) :
    let s := (r.session outcomes).handleAll r.settings script
    r.run script outcomes =
      { relay := { r with ledger := s.ledger }
        attempts := s.attempts
        unread := []
        outcomes := s.outcomes
        result := .ok s.ledger.stats } :=
  run_of_session (session_run_of_calm h hcalm outcomes).1

/-- A run comes to the end of a script without a streak, or gives up at the end of the first. -/
theorem run_ending {r : Relay π} (h : r.settings.validate = .ok ()) (script : List Delivery)
    (outcomes : List SendOutcome) :
    ∃ read, script = read ++ (r.run script outcomes).unread ∧
      (∃ entries, (r.run script outcomes).relay.ledger.log = r.ledger.log ++ entries ∧
        entries.filterMap LogEntry.warning? = positioned read) ∧
      (((r.run script outcomes).result = .ok (r.run script outcomes).relay.stats ∧
          (r.run script outcomes).unread = [] ∧ ¬ HasStreak r.settings.errorLimit.toNat read) ∨
        ∃ calm causes cause, read = calm ++ (causes ++ [cause]).map Delivery.fault ∧
          causes.length + 1 = r.settings.errorLimit.toNat ∧
          ¬ HasStreak r.settings.errorLimit.toNat (calm ++ causes.map Delivery.fault) ∧
          (r.run script outcomes).result =
            .error (.socketUnusable r.settings.errorLimit cause)) := by
  have hm := (RelaySettings.limits_of_validate h).2
  obtain ⟨read, hread, hwatched, hend⟩ := Session.run_watched hm (session_watched h outcomes)
    (not_hasStreak_nil hm) script
  refine ⟨read, hread, hwatched.warned, ?_⟩
  rw [List.nil_append] at hend
  rcases hend with ⟨hok, hunread, hcalm⟩ | ⟨hstreak, hcalm, cause, hlast, herror⟩
  · refine Or.inl ⟨?_, hunread, hcalm⟩
    unfold run
    dsimp only
    rw [hok]
    rfl
  · obtain ⟨calm, causes, hsplit, hlen, hdrop⟩ := exists_streak_at_end hm hstreak hlast
    rw [hdrop] at hcalm
    refine Or.inr ⟨calm, causes, cause, hsplit, hlen, hcalm, ?_⟩
    unfold run
    dsimp only
    rw [herror]
    rfl

end Relay

/-! ### Any run in the history of a relay -/

namespace Service

variable {π : Type} [LossPolicy π]

theorem pending_serveAll {v : Service π} (h : v.relay.settings.validate = .ok ())
    (hp : v.relay.ledger.pending = []) (ts : List Turn) :
    (v.serveAll ts).2.relay.ledger.pending = [] := by
  induction ts generalizing v with
  | nil => exact hp
  | cons t ts ih =>
    obtain ⟨_, -, -, -, htraced⟩ :=
      Relay.run_carried h (v.unread ++ t.deliveries) (v.outcomes ++ t.outcomes)
    have hnext : (v.next t).relay.ledger.pending = [] := (htraced hp).1
    exact ih (v := v.next t) h hnext

end Service

/-- **When a run gives up.**  Take any run in any history of a relay, with the books at its start.
It gives up if and only if its script contains as many failed receives in a row as the settings
allow; then it has read the script up to the last failure of the first such streak and reports that
failure.  Otherwise it reads the whole script and returns the counters.  Either way every datagram
it has read was judged, sent if it passes, and traced, and every failed receive was logged by a
warning that shows its position in its streak and its cause. -/
theorem Relay.run_gives_up_iff {π : Type} [LossPolicy π] {settings : RelaySettings} {policy : π}
    {queue : TraceQueue} {relay : Relay π} (h : Relay.onSocket settings policy queue = .ok relay)
    (turns : List Turn) (turn : Turn) :
    let before := (relay.start.serveAll turns).2
    let books := before.relay.ledger
    let episode := before.episode turn
    let run := episode.run
    let limit := settings.errorLimit.toNat
    ((∃ failures last, run.result = .error (.socketUnusable failures last)) ↔
      HasStreak limit episode.script) ∧
    (HasStreak limit episode.script → ∃ calm causes last,
      episode.script = calm ++ (causes ++ [last]).map Delivery.fault ++ run.unread ∧
      causes.length + 1 = limit ∧ ¬ HasStreak limit (calm ++ causes.map Delivery.fault) ∧
      run.result = .error (.socketUnusable settings.errorLimit last)) ∧
    (¬ HasStreak limit episode.script →
      run.result = .ok run.relay.stats ∧ run.unread = []) ∧
    (episode.script = episode.read ++ run.unread ∧
      run.attempts = books.attempts settings episode.read ∧
      run.relay.ledger.policy = (books.decisions settings episode.read).2 ∧
      run.relay.ledger.pending = [] ∧
      run.relay.ledger.queue = books.queue.emitAll (books.events settings episode.read)) ∧
    ∃ entries, run.relay.ledger.log = books.log ++ entries ∧
      entries.filterMap LogEntry.warning? = positioned episode.read ∧
      warnings entries = (positioned episode.read).map fun (position, cause) =>
        (.warn, "Receive failed (" ++ toString position ++ " in a row): " ++ cause.message) := by
  obtain ⟨hs, rfl⟩ := eq_of_onSocket h
  intro before books episode run limit
  have hset : before.relay.settings = settings := Service.settings_serveAll _ turns
  have hvalid : before.relay.settings.validate = .ok () := hset ▸ hs
  have hpending : books.pending = [] :=
    Service.pending_serveAll (v := Relay.start ⟨settings, .fresh policy queue⟩) hs rfl turns
  obtain ⟨read, hscript, ⟨entries, hlog, hpositions⟩, hend⟩ :=
    run_ending hvalid episode.script episode.outcomes
  obtain ⟨_, hscript', -, hpassage, htraced⟩ :=
    run_carried hvalid episode.script episode.outcomes
  obtain rfl : episode.read = read := Episode.read_eq hscript
  obtain rfl := Episode.read_eq hscript'
  rw [hset] at hend hpassage htraced
  have hattempts : run.attempts = books.attempts settings episode.read :=
    (map_fst_answered ..).symm.trans hpassage.attempts
  obtain ⟨hnone, hqueue⟩ := htraced hpending
  have hkept : episode.script = episode.read ++ run.unread ∧
      run.attempts = books.attempts settings episode.read ∧
      run.relay.ledger.policy = (books.decisions settings episode.read).2 ∧
      run.relay.ledger.pending = [] ∧
      run.relay.ledger.queue = books.queue.emitAll (books.events settings episode.read) :=
    ⟨hscript, hattempts, hpassage.policy, hnone, hqueue⟩
  have hwarned : ∃ entries, run.relay.ledger.log = books.log ++ entries ∧
      entries.filterMap LogEntry.warning? = positioned episode.read ∧
      warnings entries = (positioned episode.read).map fun (position, cause) =>
        (.warn, "Receive failed (" ++ toString position ++ " in a row): " ++ cause.message) :=
    ⟨entries, hlog, hpositions, hpositions ▸ warnings_eq entries⟩
  rcases hend with ⟨hok, hunread, hcalm⟩ | ⟨calm, causes, last, hread, hlen, hcalm, herror⟩
  · -- the script has been read to its end without a streak
    have hall : episode.read = episode.script := by
      rw [hscript, hunread, List.append_nil]
    rw [hall] at hcalm
    refine ⟨⟨?_, fun hstreak => (hcalm hstreak).elim⟩, fun hstreak => (hcalm hstreak).elim,
      fun _ => ⟨hok, hunread⟩, hkept, hwarned⟩
    rintro ⟨failures, last, herror⟩
    cases hok.symm.trans herror
  · -- the last failure of the first streak has been read
    have hsplit : episode.script = calm ++ (causes ++ [last]).map Delivery.fault ++ run.unread := by
      rw [← hread]
      exact hscript
    have hstreak : HasStreak limit episode.script := by
      refine ⟨causes ++ [last], ?_, calm, run.unread, hsplit.symm⟩
      rw [List.length_append, List.length_singleton]
      exact hlen
    exact ⟨⟨fun _ => hstreak, fun _ => ⟨_, _, herror⟩⟩,
      fun _ => ⟨calm, causes, last, hsplit, hlen, hcalm, herror⟩,
      fun hnot => (hnot hstreak).elim, hkept, hwarned⟩

/-- The failure at the end of the first run is not counted in the second, where a datagram that is
dropped comes after the first failure and the next two in a row end the run. -/
theorem Relay.run_gives_up_after_two_failures :
    let settings : RelaySettings :=
      { RelaySettings.between default default with payloadLimit := 4, errorLimit := 2 }
    let policy : IndexPolicy := ⟨⟨10, .ofList [1], .empty⟩⟩
    let turns : List Turn := [{ deliveries := [.datagram [1] .zero default, .fault .timedOut] }]
    let turn : Turn :=
      { deliveries := [.fault .timedOut, .datagram [2, 3] .zero default, .fault .timedOut,
          .fault .connectionRefused, .datagram [4] .zero default] }
    ∃ relay, onSocket settings policy .disabled = .ok relay ∧
      ∃ failures last, ((relay.start.serveAll turns).2.episode turn).run.result =
        .error (.socketUnusable failures last) := by
  intro settings policy turns turn
  have h : onSocket settings policy .disabled = .ok ⟨settings, .fresh policy .disabled⟩ := rfl
  refine ⟨_, h, (run_gives_up_iff h turns turn).1.mpr ?_⟩
  exact ⟨[.timedOut, .connectionRefused], rfl,
    ⟨[.fault .timedOut, .datagram [2, 3] .zero default], [.datagram [4] .zero default], rfl⟩⟩

end LossRelay
