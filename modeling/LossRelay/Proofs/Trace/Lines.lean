import LossRelay.Proofs.Config.RouteGrammar
import LossRelay.Proofs.Json.Reading
import LossRelay.Proofs.Policy.TraceTruth

/-!
# Reading the lines of a trace

The line of an event is read back: `TraceEvent.ofLine?` tells the kind of the event by the fixed
words and takes its counters out from between them, where each ends at the first character that is
no digit (`TraceEvent.ofLine?_line`).  Only the length of a silence is passed over, since its text
is rounded.  So two events have the same line in one case alone, two ends of blocks that differ by
nothing but the lengths of their silences, and these by less than the text shows
(`TraceEvent.line_eq_iff`).  Nothing else is lost in print: the verdicts of a whole run can be told
from its lines (`BlockPolicy.verdictsOf_lines`).
-/

namespace LossRelay

/-! ### Parts of a line -/

theorem Numeral.readWord?_digits (n : UInt64) : readWord? (digits n.toNat) = some n := by
  have hdigits : ∀ d ∈ digits n.toNat, d.isDigit = true := fun _ hd => isDigit_of_mem_digits hd
  have hplus : dropPlus (digits n.toNat) = digits n.toNat :=
    Route.dropPlus_numeral (Or.inl rfl) Nat.toDigits_ne_nil hdigits
  have hvalue := value_digits n.toNat
  have hle : n.toNat ≤ 18446744073709551615 := Nat.le_of_lt_succ n.toNat_lt
  have hread : read? 18446744073709551615 (digits n.toNat) = some n.toNat := by
    unfold read?
    dsimp only
    rw [hplus, hvalue]
    exact if_pos ⟨Nat.toDigits_ne_nil, List.all_eq_true.mpr hdigits, hle⟩
  unfold readWord?
  rw [hread, Option.map_some, UInt64.ofNat_toNat]

/-- A counter at the front of a text, and the rest. -/
def counterAhead? (s : List Char) : Option (UInt64 × List Char) :=
  let (ds, rest) := Json.digitRun s
  (Numeral.readWord? ds).map (·, rest)

theorem counterAhead?_counter (n : UInt64) (rest : List Char)
    (hrest : rest.head?.any Char.isDigit = false) :
    counterAhead? ((counterText n).toList ++ rest) = some (n, rest) := by
  have hrun : Json.digitRun (Numeral.digits n.toNat ++ rest) = (Numeral.digits n.toNat, rest) :=
    Json.digitRun_text (fun _ hc => Numeral.isDigit_of_mem_digits hc)
      (by simpa [Option.any_eq_false] using hrest)
  unfold counterAhead? counterText Numeral.text
  rw [String.toList_ofList, hrun]
  simp only [Numeral.readWord?_digits, Option.map_some]

def Verdict.ofOutcome? (word : List Char) : Option Verdict :=
  [forward, drop].find? (·.outcome.toList = word)

theorem Verdict.ofOutcome?_outcome (v : Verdict) : ofOutcome? v.outcome.toList = some v := by
  cases v <;> rfl

theorem dropPrefix?_append (word rest : List Char) :
    (word ++ rest).dropPrefix? word = some rest :=
  List.dropPrefix?_append_of_beq rest BEq.rfl

def lastWord? (word s : List Char) : Option Unit := if s = word then some () else none

theorem lastWord?_self (word : List Char) : lastWord? word word = some () := if_pos rfl

namespace TraceEvent

/-! ### Events up to the length of a silence -/

/-- The event with the length of a silence left out. -/
def withoutGap : TraceEvent → TraceEvent
  | .blockFinished packets lastSymbol _ => .blockFinished packets lastSymbol .zero
  | .packet index verdict => .packet index verdict
  | .blockSizeLearned lastSymbol target => .blockSizeLearned lastSymbol target
  | .symbolDropped symbol block => .symbolDropped symbol block

theorem withoutGap_eq_iff {e f : TraceEvent} : e.withoutGap = f.withoutGap ↔
    e = f ∨ ∃ packets lastSymbol gap gap',
      e = .blockFinished packets lastSymbol gap ∧ f = .blockFinished packets lastSymbol gap' := by
  constructor
  · intro h
    -- leaving the length out keeps the kind, so only events of one kind remain
    cases e <;> cases f <;> simp_all [withoutGap]
  · rintro (rfl | ⟨packets, lastSymbol, gap, gap', rfl, rfl⟩)
    · rfl
    · rfl

/-! ### Lines by their first words -/

/-- The end of a block, from what follows `Packets: `; the length of the silence is passed over. -/
def finishedRest? (s : List Char) : Option TraceEvent := do
  let (packets, s) ← counterAhead? s
  let s ← s.dropPrefix? " Symbol: ".toList
  let (lastSymbol, s) ← counterAhead? s
  let _ ← s.dropPrefix? " --- time lapse --- (".toList
  return .blockFinished packets lastSymbol .zero

/-- What was decided on a packet, from what follows `Packet `: by the number of the packet in the
stream if a colon comes after it, and by its position in a block otherwise. -/
def packetRest? (s : List Char) : Option TraceEvent := do
  let (number, s) ← counterAhead? s
  match s.dropPrefix? ": ".toList with
  | some word =>
    let verdict ← Verdict.ofOutcome? word
    return .packet number verdict
  | none =>
    let s ← s.dropPrefix? " of block ".toList
    let (block, s) ← counterAhead? s
    lastWord? " DROPPED!".toList s
    return .symbolDropped number block

/-- The size of blocks, from what follows `Block size `. -/
def sizeRest? (s : List Char) : Option TraceEvent := do
  let (lastSymbol, s) ← counterAhead? s
  match s.dropPrefix? " matches calibration, dropping symbol ".toList with
  | some s =>
    let (target, s) ← counterAhead? s
    lastWord? " of every block".toList s
    return .blockSizeLearned lastSymbol (some target)
  | none =>
    lastWord? " has no tuned drop rule, forwarding everything".toList s
    return .blockSizeLearned lastSymbol none

/-- The event of a line, with the length of a silence left out. -/
def ofLine? (line : String) : Option TraceEvent :=
  match line.toList.dropPrefix? "Packets: ".toList with
  | some s => finishedRest? s
  | none =>
    match line.toList.dropPrefix? "Packet ".toList with
    | some s => packetRest? s
    | none => (line.toList.dropPrefix? "Block size ".toList).bind sizeRest?

theorem finishedRest?_line (packets lastSymbol : UInt64) (tail : List Char) :
    finishedRest? ((counterText packets).toList ++ (" Symbol: ".toList ++
      ((counterText lastSymbol).toList ++ (" --- time lapse --- (".toList ++ tail)))) =
      some (.blockFinished packets lastSymbol .zero) := by
  refine Option.bind_eq_some_iff.mpr ⟨_, counterAhead?_counter packets _ rfl, ?_⟩
  refine Option.bind_eq_some_iff.mpr ⟨_, dropPrefix?_append .., ?_⟩
  refine Option.bind_eq_some_iff.mpr ⟨_, counterAhead?_counter lastSymbol _ rfl, ?_⟩
  exact Option.bind_eq_some_iff.mpr ⟨_, dropPrefix?_append .., rfl⟩

theorem packetRest?_packet (index : UInt64) (verdict : Verdict) :
    packetRest? ((counterText index).toList ++ (": ".toList ++ verdict.outcome.toList)) =
      some (.packet index verdict) := by
  refine Option.bind_eq_some_iff.mpr ⟨_, counterAhead?_counter index _ rfl, ?_⟩
  dsimp only
  rw [dropPrefix?_append]
  exact Option.bind_eq_some_iff.mpr ⟨_, verdict.ofOutcome?_outcome, rfl⟩

theorem packetRest?_symbolDropped (symbol block : UInt64) :
    packetRest? ((counterText symbol).toList ++ (" of block ".toList ++
      ((counterText block).toList ++ " DROPPED!".toList))) =
      some (.symbolDropped symbol block) := by
  have hcolon (s : List Char) : (" of block ".toList ++ s).dropPrefix? ": ".toList = none := rfl
  refine Option.bind_eq_some_iff.mpr ⟨_, counterAhead?_counter symbol _ rfl, ?_⟩
  dsimp only
  rw [hcolon]
  refine Option.bind_eq_some_iff.mpr ⟨_, dropPrefix?_append .., ?_⟩
  refine Option.bind_eq_some_iff.mpr ⟨_, counterAhead?_counter block _ rfl, ?_⟩
  exact Option.bind_eq_some_iff.mpr ⟨_, lastWord?_self _, rfl⟩

theorem sizeRest?_tuned (lastSymbol target : UInt64) :
    sizeRest? ((counterText lastSymbol).toList ++
      (" matches calibration, dropping symbol ".toList ++
        ((counterText target).toList ++ " of every block".toList))) =
      some (.blockSizeLearned lastSymbol (some target)) := by
  refine Option.bind_eq_some_iff.mpr ⟨_, counterAhead?_counter lastSymbol _ rfl, ?_⟩
  dsimp only
  rw [dropPrefix?_append]
  refine Option.bind_eq_some_iff.mpr ⟨_, counterAhead?_counter target _ rfl, ?_⟩
  exact Option.bind_eq_some_iff.mpr ⟨_, lastWord?_self _, rfl⟩

theorem sizeRest?_untuned (lastSymbol : UInt64) :
    sizeRest? ((counterText lastSymbol).toList ++
      " has no tuned drop rule, forwarding everything".toList) =
      some (.blockSizeLearned lastSymbol none) := by
  have hmatches : " has no tuned drop rule, forwarding everything".toList.dropPrefix?
      " matches calibration, dropping symbol ".toList = none := rfl
  refine Option.bind_eq_some_iff.mpr ⟨_, counterAhead?_counter lastSymbol _ rfl, ?_⟩
  dsimp only
  rw [hmatches]
  exact Option.bind_eq_some_iff.mpr ⟨_, lastWord?_self _, rfl⟩

theorem ofLine?_of_packets {line : String} {s : List Char}
    (h : line.toList = "Packets: ".toList ++ s) : ofLine? line = finishedRest? s := by
  simp only [ofLine?, h, dropPrefix?_append]

/-- The first word `Packet ` is no beginning of the word `Packets: `, as a blank ends it. -/
theorem ofLine?_of_packet {line : String} {s : List Char}
    (h : line.toList = "Packet ".toList ++ s) : ofLine? line = packetRest? s := by
  have hpackets : ("Packet ".toList ++ s).dropPrefix? "Packets: ".toList = none := rfl
  simp only [ofLine?, h, hpackets, dropPrefix?_append]

theorem ofLine?_of_size {line : String} {s : List Char}
    (h : line.toList = "Block size ".toList ++ s) : ofLine? line = sizeRest? s := by
  have hpackets : ("Block size ".toList ++ s).dropPrefix? "Packets: ".toList = none := rfl
  have hpacket : ("Block size ".toList ++ s).dropPrefix? "Packet ".toList = none := rfl
  simp only [ofLine?, h, hpackets, hpacket, dropPrefix?_append, Option.bind_some]

/-! ### Reading back -/

/-- The line of an event is read back, up to the length of a silence. -/
theorem ofLine?_line (e : TraceEvent) : ofLine? e.line = some e.withoutGap := by
  unfold line
  cases e with
  | packet index verdict =>
    refine (ofLine?_of_packet ?_).trans (packetRest?_packet index verdict)
    simp only [String.toList_append, List.append_assoc]
  | blockFinished packets lastSymbol gap =>
    let tail := Decimal.fixed 3 gap.millis ++ " ms)"
    refine (ofLine?_of_packets ?_).trans (finishedRest?_line packets lastSymbol tail.toList)
    simp only [tail, String.toList_append, List.append_assoc]
  | blockSizeLearned lastSymbol target =>
    cases target with
    | some target =>
      refine (ofLine?_of_size ?_).trans (sizeRest?_tuned lastSymbol target)
      simp only [String.toList_append, List.append_assoc]
    | none =>
      refine (ofLine?_of_size ?_).trans (sizeRest?_untuned lastSymbol)
      simp only [String.toList_append, List.append_assoc]
  | symbolDropped symbol block =>
    refine (ofLine?_of_packet ?_).trans (packetRest?_symbolDropped symbol block)
    simp only [String.toList_append, List.append_assoc]

theorem line_blockFinished_eq_iff {packets lastSymbol : UInt64} {gap gap' : Span} :
    (blockFinished packets lastSymbol gap).line = (blockFinished packets lastSymbol gap').line ↔
      Decimal.fixed 3 gap.millis = Decimal.fixed 3 gap'.millis := by
  show _ ++ Decimal.fixed 3 gap.millis ++ " ms)" = _ ++ Decimal.fixed 3 gap'.millis ++ " ms)" ↔ _
  rw [String.append_left_inj, String.append_right_inj]

/-- Two events have the same line exactly if they are equal, or are ends of blocks with the same
counters whose silences have the same text. -/
theorem line_eq_iff {e f : TraceEvent} : e.line = f.line ↔
    e = f ∨ ∃ packets lastSymbol gap gap',
      e = .blockFinished packets lastSymbol gap ∧ f = .blockFinished packets lastSymbol gap' ∧
        Decimal.fixed 3 gap.millis = Decimal.fixed 3 gap'.millis := by
  constructor
  · intro h
    have hread := congrArg ofLine? h
    rw [ofLine?_line, ofLine?_line] at hread
    rcases withoutGap_eq_iff.mp (Option.some.inj hread) with
      rfl | ⟨packets, lastSymbol, gap, gap', rfl, rfl⟩
    · exact Or.inl rfl
    · exact Or.inr ⟨packets, lastSymbol, gap, gap', rfl, rfl, line_blockFinished_eq_iff.mp h⟩
  · rintro (rfl | ⟨packets, lastSymbol, gap, gap', rfl, rfl, htext⟩)
    · rfl
    · exact line_blockFinished_eq_iff.mpr htext

/-- **Lines are unambiguous.**  Two different events have different lines unless both are ends of
blocks, and so have two ends of blocks that differ in a counter.  The kind of an event and all its
parts but the length of a silence are read back from its line. -/
theorem lines_unambiguous :
    (∀ e f : TraceEvent, e ≠ f → ¬ (e.boundary?.isSome ∧ f.boundary?.isSome) →
      e.line ≠ f.line) ∧
    (∀ (packets lastSymbol packets' lastSymbol' : UInt64) (gap gap' : Span),
      packets ≠ packets' ∨ lastSymbol ≠ lastSymbol' →
      (blockFinished packets lastSymbol gap).line ≠
        (blockFinished packets' lastSymbol' gap').line) ∧
    ∀ e : TraceEvent, ofLine? e.line = some e.withoutGap := by
  refine ⟨fun e f hne hboth hline => ?_, ?_, ofLine?_line⟩
  · rcases line_eq_iff.mp hline with heq | ⟨packets, lastSymbol, gap, gap', rfl, rfl, -⟩
    · exact hne heq
    · exact hboth ⟨rfl, rfl⟩
  · intro packets lastSymbol packets' lastSymbol' gap gap' hne hline
    rcases line_eq_iff.mp hline with heq | ⟨_, _, _, _, he, hf, -⟩
    · cases heq
      exact hne.elim (absurd rfl) (absurd rfl)
    · cases he
      cases hf
      exact hne.elim (absurd rfl) (absurd rfl)

/-- Events whose lines begin alike, and a line that is read back. -/
theorem lines_unambiguous_of_alike :
    (packet 4 .drop).line ≠ (symbolDropped 4 0).line ∧
    (blockFinished 10 9 .zero).line ≠ (blockFinished 1 9 .zero).line ∧
    ofLine? "Packet 100 of block 2 DROPPED!" = some (.symbolDropped 100 2) := by
  obtain ⟨hapart, hcounters, hread⟩ := lines_unambiguous
  have hline : (symbolDropped 100 2).line = "Packet 100 of block 2 DROPPED!" := by decide +kernel
  exact ⟨hapart _ _ (by decide) (by decide), hcounters _ _ _ _ _ _ (Or.inl (by decide)),
    hline ▸ hread (symbolDropped 100 2)⟩

end TraceEvent

/-! ### The lines of a run -/

theorem filterMap_ofLine?_lines (trace : List TraceEvent) :
    (trace.map TraceEvent.line).filterMap TraceEvent.ofLine? =
      trace.map TraceEvent.withoutGap := by
  have hread : TraceEvent.ofLine? ∘ TraceEvent.line = some ∘ TraceEvent.withoutGap :=
    funext TraceEvent.ofLine?_line
  rw [List.filterMap_map, hread, List.filterMap_eq_map]

theorem dropOrdinals_withoutGap (base : Nat) (trace : List TraceEvent) :
    dropOrdinals base (trace.map TraceEvent.withoutGap) = dropOrdinals base trace := by
  induction trace generalizing base with
  | nil => rfl
  | cons e es ih =>
    cases e with
    | blockFinished packets lastSymbol gap => exact ih packets.toNat
    | symbolDropped symbol block => exact congrArg ((base + symbol.toNat) :: ·) (ih base)
    | blockSizeLearned lastSymbol target => exact ih base
    | packet index verdict => exact ih base

/-- **The lines of a run tell its verdicts.**  For fewer than `2 ^ 64` arrivals with any times, the
verdicts of the block policy can be told from the lines of its trace and the number of packets. -/
theorem BlockPolicy.verdictsOf_lines (rule : BlockRule) (arrivals : List Arrival)
    (h : arrivals.length < 2 ^ 64) :
    verdictsOf (((trace rule arrivals).map TraceEvent.line).filterMap TraceEvent.ofLine?)
      arrivals.length = (decisions rule arrivals).map (·.verdict) := by
  have hdrops := (truthful rule arrivals h).drops
  calc verdictsOf (((trace rule arrivals).map TraceEvent.line).filterMap TraceEvent.ofLine?)
        arrivals.length
      = verdictsOf ((trace rule arrivals).map TraceEvent.withoutGap) arrivals.length := by
        rw [filterMap_ofLine?_lines]
    _ = verdictsOf (trace rule arrivals) arrivals.length := by
        unfold verdictsOf
        rw [dropOrdinals_withoutGap]
    _ = verdictsOf (trace rule arrivals) (decisions rule arrivals).length := by
        rw [length_decisions]
    _ = (decisions rule arrivals).map (·.verdict) :=
        (verdictsOf_trace (decisions rule arrivals) hdrops).1

end LossRelay
