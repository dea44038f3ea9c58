import LossRelay.Policy.Index
import LossRelay.Proofs.Relay.Moments
import LossRelay.Proofs.Trace.Lines

/-!
# What the log says of a packet

Two entries of the log are about a packet: it was too long, and it was dropped.  They are the entries
of the debug level, and carry the number of the packet in the life of the relay.  `Ledger.lines` are
those that the datagrams of a script call for, numbered on from the books at its start.  At every
moment the log holds the lines of all datagrams read until then, and no others
(`Service.during_lines`); and since numbers do not repeat, the lines with a number are those of the
datagram that has it (`linesOf_linesFrom`).  The number can be told from the text of a line alone
(`textsNaming_eq`).
-/

namespace LossRelay

/-- The number of the packet that an entry of the log is about, if it is about one. -/
def LogEntry.packet? : LogEntry → Option UInt64
  | .droppedPacket index _ => some index
  | .oversizePacket index _ => some index
  | _ => none

def debugLines (log : List LogEntry) : List LogEntry := log.filter fun entry => entry.level = .debug

/-- The entries of a log that carry the number of a packet. -/
def linesOf (number : UInt64) (log : List LogEntry) : List LogEntry :=
  log.filter fun entry => entry.packet? = some number

theorem debugLines_append (log log' : List LogEntry) :
    debugLines (log ++ log') = debugLines log ++ debugLines log' := List.filter_append ..

theorem linesOf_append (number : UInt64) (log log' : List LogEntry) :
    linesOf number (log ++ log') = linesOf number log ++ linesOf number log' :=
  List.filter_append ..

theorem linesOf_debugLines (number : UInt64) (log : List LogEntry) :
    linesOf number (debugLines log) = linesOf number log := by
  unfold linesOf debugLines
  rw [List.filter_filter]
  apply List.filter_congr
  intro entry _
  cases entry <;> simp [LogEntry.packet?, LogEntry.level]

/-! ### The lines of datagrams -/

/-- The lines about a datagram with its number and its verdict: that it is longer than the limit, if
it is, and then that it was dropped, if it was. -/
def Datagram.lines (d : Datagram) (limit number : UInt64) (verdict : Verdict) : List LogEntry :=
  (if limit.toNat < d.payload.length then [.oversizePacket number limit] else []) ++
    if verdict = .drop then [.droppedPacket number (.ofNat (min d.payload.length limit.toNat))]
    else []

/-- The lines about datagrams with their verdicts, numbered from `first` on. -/
def linesFrom (limit first : UInt64) (judged : List (Datagram × Verdict)) : List LogEntry :=
  (judged.mapIdx fun i p => p.1.lines limit (first + .ofNat i) p.2).flatten

theorem linesFrom_singleton (limit first : UInt64) (d : Datagram) (verdict : Verdict) :
    linesFrom limit first [(d, verdict)] = d.lines limit first verdict := by simp [linesFrom]

theorem linesFrom_append (limit first : UInt64) (as bs : List (Datagram × Verdict)) :
    linesFrom limit first (as ++ bs) =
      linesFrom limit first as ++ linesFrom limit (first + .ofNat as.length) bs := by
  unfold linesFrom
  rw [List.mapIdx_append, List.flatten_append]
  congr 2
  apply List.mapIdx_eq_mapIdx_iff.mpr
  intro i hi
  rw [UInt64.ofNat_add, UInt64.add_comm (.ofNat i), UInt64.add_assoc]

theorem packet?_of_mem_lines {d : Datagram} {limit number : UInt64} {verdict : Verdict}
    {entry : LogEntry} (h : entry ∈ d.lines limit number verdict) :
    entry.packet? = some number := by
  unfold Datagram.lines at h
  rcases List.mem_append.mp h with h | h
  · split at h
    · rw [List.mem_singleton.mp h]
      rfl
    · cases h
  · split at h
    · rw [List.mem_singleton.mp h]
      rfl
    · cases h

theorem linesOf_lines (d : Datagram) (limit number : UInt64) (verdict : Verdict) :
    linesOf number (d.lines limit number verdict) = d.lines limit number verdict := by
  apply List.filter_eq_self.mpr
  intro entry hentry
  simpa using packet?_of_mem_lines hentry

theorem linesOf_linesFrom_of_ne {limit first number : UInt64} {judged : List (Datagram × Verdict)}
    (h : ∀ i < judged.length, first + .ofNat i ≠ number) :
    linesOf number (linesFrom limit first judged) = [] := by
  apply List.filter_eq_nil_iff.mpr
  intro entry hentry
  obtain ⟨lines, hlines, hmem⟩ := List.mem_flatten.mp hentry
  obtain ⟨i, hi, rfl⟩ := List.mem_mapIdx.mp hlines
  simpa [packet?_of_mem_lines hmem] using h i hi

theorem ofNat_ne_ofNat {m n : Nat} (hm : m < 2 ^ 64) (hn : n < 2 ^ 64) (h : m ≠ n) :
    UInt64.ofNat m ≠ .ofNat n := by
  intro heq
  have hnat := congrArg UInt64.toNat heq
  rw [UInt64.toNat_ofNat_of_lt' hm, UInt64.toNat_ofNat_of_lt' hn] at hnat
  exact h hnat

/-- **Numbers do not repeat**, so the lines with a number are those of the datagram that has it. -/
theorem linesOf_linesFrom {limit : UInt64} {judged : List (Datagram × Verdict)}
    (hlen : judged.length ≤ 2 ^ 64) {i : Nat} {d : Datagram} {verdict : Verdict}
    (hi : judged[i]? = some (d, verdict)) :
    linesOf (.ofNat i) (linesFrom limit 0 judged) = d.lines limit (.ofNat i) verdict := by
  obtain ⟨hlt, hget⟩ := List.getElem?_eq_some_iff.mp hi
  have hsplit : judged = judged.take i ++ [(d, verdict)] ++ judged.drop (i + 1) := by
    rw [← hget, List.take_append_getElem, List.take_append_drop]
  have hbefore : (judged.take i).length = i := by
    rw [List.length_take]
    omega
  have hafter : (judged.drop (i + 1)).length = judged.length - (i + 1) := List.length_drop
  rw [hsplit, linesFrom_append, linesFrom_append, linesOf_append, linesOf_append, hbefore,
    linesFrom_singleton, UInt64.zero_add, linesOf_lines, linesOf_linesFrom_of_ne,
    linesOf_linesFrom_of_ne, List.nil_append, List.append_nil]
  · -- the datagrams after this one
    intro j hj
    rw [List.length_append, hbefore, List.length_singleton, UInt64.zero_add, ← UInt64.ofNat_add]
    exact ofNat_ne_ofNat (by omega) (by omega) (by omega)
  · -- the datagrams before it
    intro j hj
    rw [UInt64.zero_add]
    exact ofNat_ne_ofNat (by omega) (by omega) (by omega)

/-! ### The texts of lines -/

/-- How a text begins that names a packet by its number. -/
def naming (word : String) (number : UInt64) : List Char :=
  word.toList ++ ((counterText number).toList ++ [' '])

/-- The texts in a log at the debug level that name the packet with a number, as one that is too long
or as one that was dropped. -/
def textsNaming (number : UInt64) (log : List LogEntry) : List String :=
  ((debugLines log).map LogEntry.message).filter fun text =>
    naming "Packet " number <+: text.toList ∨ naming "Dropped packet " number <+: text.toList

/-- Two numbers before a blank begin alike only if they are equal. -/
theorem naming_prefix_iff (word : String) (n m : UInt64) (rest : List Char) :
    naming word n <+: word.toList ++ ((counterText m).toList ++ ' ' :: rest) ↔ n = m := by
  refine (List.prefix_append_right_inj _).trans ⟨?_, ?_⟩
  · rintro ⟨tail, htail⟩
    rw [List.append_assoc] at htail
    have hread := congrArg counterAhead? htail
    rw [counterAhead?_counter n _ rfl, counterAhead?_counter m _ rfl] at hread
    exact congrArg Prod.fst (Option.some.inj hread)
  · rintro rfl
    exact ⟨rest, by simp⟩

theorem not_naming_other (number : UInt64) (s : List Char) :
    ¬ naming "Packet " number <+: "Dropped packet ".toList ++ s ∧
      ¬ naming "Dropped packet " number <+: "Packet ".toList ++ s := by
  constructor <;>
  · intro hprefix
    have hfirst := (List.cons_prefix_cons.mp hprefix).1
    contradiction

/-- The text of a line about a packet names it, and no other. -/
theorem naming_message_iff (number : UInt64) {entry : LogEntry} (h : entry.level = .debug) :
    (naming "Packet " number <+: entry.message.toList ∨
      naming "Dropped packet " number <+: entry.message.toList) ↔ entry.packet? = some number := by
  have hnumber (index : UInt64) : number = index ↔ some index = some number :=
    ⟨fun heq => heq ▸ rfl, fun heq => (Option.some.inj heq).symm⟩
  cases entry with
  | droppedPacket index size =>
    have htext : (LogEntry.droppedPacket index size).message.toList =
        "Dropped packet ".toList ++ ((counterText index).toList ++
          (" (".toList ++ ((counterText size).toList ++ " bytes)".toList))) := by
      unfold LogEntry.message
      simp only [String.toList_append, List.append_assoc]
    rw [htext, or_iff_right (not_naming_other number _).1]
    exact (naming_prefix_iff ..).trans (hnumber index)
  | oversizePacket index limit =>
    have htext : (LogEntry.oversizePacket index limit).message.toList =
        "Packet ".toList ++ ((counterText index).toList ++ (" longer than ".toList ++
          ((counterText limit).toList ++ (" bytes, forwarding the first ".toList ++
            (counterText limit).toList)))) := by
      unfold LogEntry.message
      simp only [String.toList_append, List.append_assoc]
    rw [htext, or_iff_left (not_naming_other number _).2]
    exact (naming_prefix_iff ..).trans (hnumber index)
  | _ => cases h

/-- **The number can be told from the text.** -/
theorem textsNaming_eq (number : UInt64) (log : List LogEntry) :
    textsNaming number log = (linesOf number log).map LogEntry.message := by
  unfold textsNaming
  rw [List.filter_map, ← linesOf_debugLines]
  congr 1
  apply List.filter_congr
  intro entry hentry
  have hlevel : entry.level = .debug := by simpa using (List.mem_filter.mp hentry).2
  exact decide_eq_decide.mpr (naming_message_iff number hlevel)

theorem Datagram.map_message_lines (d : Datagram) (limit number : UInt64) (verdict : Verdict) :
    (d.lines limit number verdict).map LogEntry.message =
      (if limit.toNat < d.payload.length then
        ["Packet " ++ toString number.toNat ++ " longer than " ++ toString limit.toNat ++
          " bytes, forwarding the first " ++ toString limit.toNat] else []) ++
      if verdict = .drop then
        ["Dropped packet " ++ toString number.toNat ++ " (" ++
          toString (min d.payload.length limit.toNat) ++ " bytes)"] else [] := by
  have hsize : counterText (.ofNat (min d.payload.length limit.toNat)) =
      toString (min d.payload.length limit.toNat) := by
    unfold counterText
    rw [UInt64.toNat_ofNat_of_lt' (Nat.lt_of_le_of_lt (Nat.min_le_right ..) limit.toNat_lt),
      Numeral.text_eq]
  unfold lines
  rw [List.map_append]
  congr 1
  · split <;> rfl
  · split
    · rw [← hsize]
      rfl
    · rfl

/-! ### The lines of a script -/

section Script

variable {π : Type} [LossPolicy π] {settings : RelaySettings}

/-- The lines about the datagrams of a script, numbered on from the books. -/
def Ledger.lines (settings : RelaySettings) (l : Ledger π) (script : List Delivery) :
    List LogEntry :=
  linesFrom settings.payloadLimit l.tally.received
    ((datagrams script).zip (l.verdicts settings script))

theorem Passage.lines_append {read : List Delivery} {answers : List (Attempt × SendOutcome)}
    {l m : Ledger π} (h : Passage settings read answers l m) (more : List Delivery) :
    l.lines settings (read ++ more) = l.lines settings read ++ m.lines settings more := by
  have hlen := Ledger.length_verdicts settings l read
  unfold Ledger.lines
  rw [datagrams_append, h.verdicts_append, List.zip_append hlen.symm, linesFrom_append, h.received,
    List.length_zip, hlen, Nat.min_self]

theorem debugLines_answerEntries (remote : Endpoint) (size : UInt64) (o : SendOutcome) :
    debugLines (Ledger.answerEntries remote size o) = [] := by
  apply List.filter_eq_nil_iff.mpr
  intro entry hentry
  obtain ⟨_, rfl⟩ | ⟨_, rfl⟩ := Ledger.of_mem_answerEntries hentry <;> exact Bool.false_ne_true

namespace Session

variable {s : Session π}

/-- **One delivery** adds its own lines to the log. -/
theorem handle_lines (hs : s.Sized settings) (d : Delivery) :
    debugLines (s.handle settings d).ledger.log =
      debugLines s.ledger.log ++ s.ledger.lines settings [d] := by
  cases d with
  | fault cause => exact debugLines_append s.ledger.log [.receiveFailed (s.streak + 1) cause]
  | datagram payload time source =>
    have hlines : s.ledger.lines settings [.datagram payload time source] =
        (Datagram.mk payload time source).lines settings.payloadLimit s.ledger.tally.received
          (s.decision settings payload time).verdict := by
      unfold Ledger.lines
      rw [Ledger.verdicts_datagram]
      exact linesFrom_singleton ..
    have hlog := receive_log hs payload time source
    -- the entry of the arrival is below the debug level
    have hheard : debugLines (s.heard payload source).log = debugLines s.ledger.log := by
      rw [heard_log, debugLines_append]
      exact List.append_nil _
    rw [hlines]
    show debugLines (s.receive settings payload time source).ledger.log = _
    rw [hlog, debugLines_append, debugLines_append, hheard, List.append_assoc]
    congr 1
    unfold Datagram.lines
    congr 1
    · split <;> rfl
    · cases (s.decision settings payload time).verdict with
      | forward => exact debugLines_answerEntries ..
      | drop => rfl

/-- **Any stretch of a script** adds its lines. -/
theorem handleAll_lines (hs : s.Sized settings) (read : List Delivery) :
    debugLines (s.handleAll settings read).ledger.log =
      debugLines s.ledger.log ++ s.ledger.lines settings read := by
  induction read generalizing s with
  | nil => exact (List.append_nil _).symm
  | cons d rest ih =>
    obtain ⟨_, hd⟩ := handle_carried hs d
    rw [handleAll_cons, ih hd.sized, handle_lines hs, List.append_assoc, ← hd.passage.lines_append]
    rfl

end Session

namespace Service

variable {v : Service π}

theorem during_next_lines (h : v.relay.settings.validate = .ok ()) (t : Turn)
    (part : List Delivery) :
    debugLines (v.during t part).ledger.log =
      debugLines v.relay.ledger.log ++ v.relay.ledger.lines v.relay.settings part :=
  Session.handleAll_lines (Relay.session_sized h (v.outcomes ++ t.outcomes)) part

theorem serveAll_lines (h : v.relay.settings.validate = .ok ()) (ts : List Turn) :
    debugLines (v.serveAll ts).2.relay.ledger.log =
      debugLines v.relay.ledger.log ++
        v.relay.ledger.lines v.relay.settings ((v.serveAll ts).1.flatMap Episode.read) := by
  induction ts generalizing v with
  | nil => exact (List.append_nil _).symm
  | cons t ts ih =>
    have hrun := during_next_lines h t (v.episode t).read
    rw [(during_read v t).1] at hrun
    have hrest : debugLines ((v.next t).serveAll ts).2.relay.ledger.log =
        debugLines (v.episode t).run.relay.ledger.log ++ (v.next t).relay.ledger.lines
          v.relay.settings (((v.next t).serveAll ts).1.flatMap Episode.read) := ih (v := v.next t) h
    rw [hrun, List.append_assoc, ← (next_passage h t).2.lines_append] at hrest
    exact hrest

/-- **The lines at a moment** are those of all datagrams read until then. -/
theorem during_lines (h : v.relay.settings.validate = .ok ()) (ts : List Turn) (t : Turn)
    (part : List Delivery) :
    debugLines ((v.serveAll ts).2.during t part).ledger.log =
      debugLines v.relay.ledger.log ++
        v.relay.ledger.lines v.relay.settings (v.readUntil ts part) := by
  have hset := settings_serveAll v ts
  have hlast : (v.serveAll ts).2.relay.settings.validate = .ok () := hset ▸ h
  rw [during_next_lines hlast, serveAll_lines h, hset, List.append_assoc,
    ← (serveAll_passage h ts).2.lines_append]
  rfl

end Service

end Script

/-! ### The trace of the index policy -/

/-- The index policy reports of each datagram its number and the verdict on it. -/
theorem Ledger.events_index (settings : RelaySettings) (p : IndexPolicy) (queue : TraceQueue)
    (script : List Delivery) :
    let l : Ledger IndexPolicy := .fresh p queue
    l.events settings script =
      (l.verdicts settings script).mapIdx fun i verdict => .packet (.ofNat i) verdict := by
  intro l
  unfold events verdicts decisions
  rw [LossPolicy.decideAll_of_fixed (p := l.policy) fun _ => rfl]
  have hevents : ∀ a, (LossPolicy.decide l.policy a).events =
      [.packet a.index (LossPolicy.decide l.policy a).verdict] := fun _ => rfl
  rw [List.flatMap_map]
  simp only [hevents, ← List.map_eq_flatMap]
  apply List.ext_getElem
  · simp
  · intro i _ _
    simp [arrivals, l, fresh, Tally.zero]

/-! ### Every moment -/

/-- **Log lines attribute packets correctly.**  Take any history of runs of a relay, and any moment
of the next run, at which it has read `part`.  Number the datagrams read since the relay was set up
from zero on, through all runs.  The entries of the debug level that the log then holds are, one
datagram after the other, an entry that it is longer than the limit, if it is, and then an entry that
it was dropped, with its length up to the limit, if the verdict is to drop; both with its number.  So
the entries with a number, of all in the log, are those of the datagram that has it, as long as
numbers fit a machine word; and so are the lines that name it in their text.  If the relay runs the
index policy, what was offered to its trace queue until then is one event for each datagram, with the
same number and verdict. -/
theorem Relay.log_lines_of_packets {π : Type} [LossPolicy π] {settings : RelaySettings} {policy : π}
    {queue : TraceQueue} {relay : Relay π} (h : onSocket settings policy queue = .ok relay)
    (turns : List Turn) (turn : Turn) (part : List Delivery) :
    let last := (relay.start.serveAll turns).2
    let moment := last.during turn part
    let limit := settings.payloadLimit
    let ds := datagrams (relay.start.readUntil turns part)
    let verdicts := relay.ledger.verdicts settings (relay.start.readUntil turns part)
    (part = (last.episode turn).read → moment.ledger = (last.episode turn).run.relay.ledger) ∧
    debugLines moment.ledger.log = linesFrom limit 0 (ds.zip verdicts) ∧
    (ds.length ≤ 2 ^ 64 → ∀ i d verdict, ds[i]? = some d → verdicts[i]? = some verdict →
      linesOf (.ofNat i) moment.ledger.log = d.lines limit (.ofNat i) verdict ∧
      textsNaming (.ofNat i) moment.ledger.log =
        (if limit.toNat < d.payload.length then
          ["Packet " ++ toString i ++ " longer than " ++ toString limit.toNat ++
            " bytes, forwarding the first " ++ toString limit.toNat] else []) ++
        if verdict = .drop then
          ["Dropped packet " ++ toString i ++ " (" ++
            toString (min d.payload.length limit.toNat) ++ " bytes)"] else []) ∧
    ∀ (p : IndexPolicy) (relay' : Relay IndexPolicy), onSocket settings p queue = .ok relay' →
      let moves := relay'.start.queueMovesUntil turns part
      ((relay'.start.serveAll turns).2.during turn part).ledger.queue = queue.moveAll moves ∧
      moves.filterMap QueueMove.offered? =
        (relay'.ledger.verdicts settings (relay'.start.readUntil turns part)).mapIdx
          fun i verdict => .packet (.ofNat i) verdict := by
  obtain ⟨hs, rfl⟩ := eq_of_onSocket h
  intro last moment limit ds verdicts
  have hlines : debugLines moment.ledger.log = linesFrom limit 0 (ds.zip verdicts) :=
    Service.during_lines (v := Relay.start ⟨settings, .fresh policy queue⟩) hs turns turn part
  refine ⟨?_, hlines, ?_, ?_⟩
  · intro hall
    rw [← (Service.during_read last turn).1, ← hall]
  · intro hlen i d verdict hd hverdict
    have hi : (ds.zip verdicts)[i]? = some (d, verdict) :=
      List.getElem?_zip_eq_some.mpr ⟨hd, hverdict⟩
    have hzip : (ds.zip verdicts).length ≤ 2 ^ 64 := by
      rw [List.length_zip]
      omega
    have hlinesOf : linesOf (.ofNat i) moment.ledger.log = d.lines limit (.ofNat i) verdict := by
      rw [← linesOf_debugLines, hlines]
      exact linesOf_linesFrom hzip hi
    have hnumber : (UInt64.ofNat i).toNat = i := by
      have hlt := (List.getElem?_eq_some_iff.mp hd).1
      exact UInt64.toNat_ofNat_of_lt' (Nat.lt_of_lt_of_le hlt hlen)
    refine ⟨hlinesOf, ?_⟩
    rw [textsNaming_eq, hlinesOf, Datagram.map_message_lines, hnumber]
  · intro p relay' h' moves
    obtain ⟨-, rfl⟩ := eq_of_onSocket h'
    constructor
    · exact Service.queue_during hs rfl turns turn part
    · have hoffered := Service.offered_queueMovesUntil
        (v := Relay.start ⟨settings, .fresh p queue⟩) hs turns part
      exact hoffered.trans (Ledger.events_index settings p queue _)

/-- Numbers go on past a failed receive and a restart: the third datagram, in the second run, is cut
at four bytes and dropped, and its lines and its event carry its number. -/
theorem Relay.log_lines_of_two_runs :
    let settings : RelaySettings := { RelaySettings.between default default with payloadLimit := 4 }
    let policy : IndexPolicy := ⟨⟨10, .ofList [0, 2], .empty⟩⟩
    let turns : List Turn :=
      [{ deliveries := [.datagram [1, 2, 3] .zero default, .fault .timedOut,
          .datagram [4, 5, 6, 7, 8, 9] .zero default], outcomes := [.fault .connectionRefused] }]
    let turn : Turn := { deliveries := [.datagram [1, 2, 3, 4, 5] .zero default] }
    ∃ relay, onSocket settings policy (.bounded 8) = .ok relay ∧
      debugLines ((relay.start.serveAll turns).2.during turn turn.deliveries).ledger.log =
        [.droppedPacket 0 3, .oversizePacket 1 4, .oversizePacket 2 4, .droppedPacket 2 4] ∧
      linesOf 2 ((relay.start.serveAll turns).2.during turn turn.deliveries).ledger.log =
        [.oversizePacket 2 4, .droppedPacket 2 4] ∧
      textsNaming 2 ((relay.start.serveAll turns).2.during turn turn.deliveries).ledger.log =
        ["Packet 2 longer than 4 bytes, forwarding the first 4", "Dropped packet 2 (4 bytes)"] ∧
      (relay.start.queueMovesUntil turns turn.deliveries).filterMap QueueMove.offered? =
        [.packet 0 .drop, .packet 1 .forward, .packet 2 .drop] := by
  intro settings policy turns turn
  have h : onSocket settings policy (.bounded 8) = .ok ⟨settings, .fresh policy (.bounded 8)⟩ := rfl
  obtain ⟨-, hlines, hnumber, hevents⟩ := log_lines_of_packets h turns turn turn.deliveries
  obtain ⟨hentries, htexts⟩ :=
    hnumber (by decide) 2 ⟨[1, 2, 3, 4, 5], .zero, default⟩ .drop (by decide) (by decide)
  refine ⟨_, h, ?_, hentries, ?_, ?_⟩
  · rw [hlines]
    decide
  · exact htexts.trans (by decide)
  · rw [(hevents policy _ h).2]
    decide

end LossRelay
