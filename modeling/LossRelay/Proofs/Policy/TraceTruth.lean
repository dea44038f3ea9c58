import LossRelay.Proofs.Policy.BlockReports
import LossRelay.Proofs.Policy.BlockRun

/-!
# The trace of the block policy tells the truth

The events of the block policy come from counters that it reads at different moments of a decision.
`events_stay` and `events_open` say what one more arrival reports in terms of the history before it
and the blocks after it; from there the three kinds of events are followed through the history: the
ends of blocks (`BlockEnds`), the size of blocks (`SizeReported`) and the drops
(`Decision.TellsDrop`).  `trace_tells_truth` puts them together.
-/

namespace LossRelay

namespace BlockPolicy

variable {rule : BlockRule}

/-! ### The events of one decision -/

/-- What a state reports of the drop that it calls for. -/
def dropEvents (rule : BlockRule) (s : BlockState) : List TraceEvent :=
  if isTarget rule s then [.symbolDropped s.symbol s.block] else []

/-- What a state reports of the size of blocks when a block ends. -/
def sizeEvents (rule : BlockRule) (s : BlockState) : List TraceEvent :=
  match s.learned with
  | some _ => []
  | none => [.blockSizeLearned s.symbol (if isTuned rule s.symbol then some rule.offset else none)]

theorem boundaries_dropEvents (rule : BlockRule) (s : BlockState) :
    boundaries (dropEvents rule s) = [] := by
  unfold dropEvents
  split <;> rfl

theorem boundaries_sizeEvents (rule : BlockRule) (s : BlockState) :
    boundaries (sizeEvents rule s) = [] := by
  unfold sizeEvents
  split <;> rfl

theorem isSize_dropEvents (rule : BlockRule) (s : BlockState) :
    ∀ e ∈ dropEvents rule s, e.isSize = false := by
  unfold dropEvents
  split <;> simp [TraceEvent.isSize]

theorem isDrop_sizeEvents (rule : BlockRule) (s : BlockState) :
    ∀ e ∈ sizeEvents rule s, e.isDrop = false := by
  unfold sizeEvents
  split <;> simp [TraceEvent.isDrop]

theorem events_of_no_boundary {s : BlockState} {a : Arrival}
    (h : (s.observe a.time rule.silence).2 = none) :
    (decide ⟨rule, s⟩ a).events = dropEvents rule (decide ⟨rule, s⟩ a).next.state := by
  have hobserve : s.observe a.time rule.silence = ((s.observe a.time rule.silence).1, none) :=
    Prod.ext rfl h
  rw [decide_of_no_boundary hobserve]
  rfl

theorem events_of_boundary {s : BlockState} {a : Arrival} {b : Boundary}
    (h : (s.observe a.time rule.silence).2 = some b) (hsymbol : b.lastSymbol = s.symbol) :
    (decide ⟨rule, s⟩ a).events =
      .blockFinished b.packetsBefore b.lastSymbol b.gap :: sizeEvents rule s ++
        dropEvents rule (decide ⟨rule, s⟩ a).next.state := by
  have hobserve : s.observe a.time rule.silence = ((s.observe a.time rule.silence).1, some b) :=
    Prod.ext rfl h
  have hlearn : (learn rule (s.observe a.time rule.silence).1 b).2.1 =
      .blockFinished b.packetsBefore b.lastSymbol b.gap :: sizeEvents rule s := by
    unfold learn sizeEvents
    rw [observe_learned, hsymbol]
    cases s.learned <;> rfl
  rw [decide_of_boundary hobserve, ← hlearn]
  rfl

/-! ### The events of one more arrival -/

theorem gapBefore_stateAfter {arrivals : List Arrival} {p : Arrival} (hp : p ∈ arrivals.getLast?)
    (now : Span) : (stateAfter rule arrivals).gapBefore now = now.since p.time := by
  simp [BlockState.gapBefore, stateAfter, Option.mem_def.mp hp]

theorem events_stay {arrivals : List Arrival} {a : Arrival} (h : arrivals.length + 1 < 2 ^ 64)
    (hstay : ∀ p ∈ arrivals.getLast?, rule.separates p a = false) :
    (decide ⟨rule, stateAfter rule arrivals⟩ a).events =
      dropEvents rule (stateAfter rule (arrivals ++ [a])) := by
  have hnone : ((stateAfter rule arrivals).observe a.time rule.silence).2 = none := by
    rw [observe_boundary, if_neg]
    rintro ⟨hcount, hgap⟩
    rcases hp : arrivals.getLast? with _ | p
    · obtain rfl := List.getLast?_eq_none_iff.mp hp
      have hzero : (stateAfter rule []).packets = 0 := rfl
      rw [hzero] at hcount
      exact absurd hcount (by decide)
    · rw [gapBefore_stateAfter hp, ← separates_iff, hstay p hp] at hgap
      cases hgap
  rw [events_of_no_boundary hnone, next_stateAfter a h]

/-- An arrival that opens a block reports the end of the last one, the size of blocks if it is not
known, and a drop. -/
theorem events_open {arrivals : List Arrival} {a p : Arrival} (h : arrivals.length + 1 < 2 ^ 64)
    (hp : p ∈ arrivals.getLast?) (hs : rule.separates p a = true) :
    (decide ⟨rule, stateAfter rule arrivals⟩ a).events =
      .blockFinished (.ofNat arrivals.length) (stateAfter rule arrivals).symbol
          (a.time.since p.time) :: sizeEvents rule (stateAfter rule arrivals) ++
        dropEvents rule (stateAfter rule (arrivals ++ [a])) := by
  have hpos : 0 < arrivals.length := List.length_pos_of_mem (List.mem_of_mem_getLast? hp)
  have hsome : ((stateAfter rule arrivals).observe a.time rule.silence).2 =
      some ⟨.ofNat arrivals.length, (stateAfter rule arrivals).symbol, a.time.since p.time⟩ := by
    have hgap : rule.silence < (stateAfter rule arrivals).gapBefore a.time := by
      rw [gapBefore_stateAfter hp]
      exact separates_iff.mp hs
    rw [observe_boundary, if_pos ⟨one_lt_ofNat_succ hpos h, hgap⟩, gapBefore_stateAfter hp]
    rfl
  rw [events_of_boundary hsome rfl, next_stateAfter a h]

/-! ### The trace of a history -/

def decisions (rule : BlockRule) (arrivals : List Arrival) : List (Decision BlockPolicy) :=
  (LossPolicy.decideAll (BlockPolicy.mk rule .initial) arrivals).1

/-- The events of a history. -/
def trace (rule : BlockRule) (arrivals : List Arrival) : List TraceEvent :=
  (decisions rule arrivals).flatMap (·.events)

theorem length_decisions (rule : BlockRule) (arrivals : List Arrival) :
    (decisions rule arrivals).length = arrivals.length := LossPolicy.length_decideAll ..

theorem decisions_concat {arrivals : List Arrival} (a : Arrival)
    (h : arrivals.length + 1 < 2 ^ 64) :
    decisions rule (arrivals ++ [a]) =
      decisions rule arrivals ++ [decide ⟨rule, stateAfter rule arrivals⟩ a] := by
  unfold decisions
  rw [LossPolicy.decideAll_concat, (decideAll_stateAfter rule arrivals (by omega)).1]
  rfl

theorem trace_concat {arrivals : List Arrival} (a : Arrival) (h : arrivals.length + 1 < 2 ^ 64) :
    trace rule (arrivals ++ [a]) =
      trace rule arrivals ++ (decide ⟨rule, stateAfter rule arrivals⟩ a).events := by
  unfold trace
  rw [decisions_concat a h, List.flatMap_append, List.flatMap_singleton]

/-- What holds of the trace of a history. -/
structure Truthful (rule : BlockRule) (arrivals : List Arrival) : Prop where
  ends : BlockEnds (rule.blocks arrivals) (boundaries (trace rule arrivals))
  size : SizeReported rule (rule.blocks arrivals) (trace rule arrivals)
  drops (i : Nat) (d : Decision BlockPolicy) (hd : (decisions rule arrivals)[i]? = some d) :
    d.TellsDrop (((decisions rule arrivals).take i).flatMap (·.events)) i

/-! ### Drops -/

theorem toNat_block_stateAfter {arrivals : List Arrival} (h : arrivals.length < 2 ^ 64) :
    (stateAfter rule arrivals).block.toNat = (rule.blocks arrivals).length - 1 := by
  have hle := length_blocks_le rule arrivals
  exact UInt64.toNat_ofNat_of_lt' (Nat.lt_of_le_of_lt (by omega) h)

/-- A drop in a later block fits the ends of the blocks before it. -/
theorem dropFits {arrivals : List Arrival} {past : List TraceEvent} {n : Nat}
    (h : arrivals.length < 2 ^ 64) (hn : arrivals.length = n + 1)
    (hends : BlockEnds (rule.blocks arrivals) (boundaries past))
    (htarget : isTarget rule (stateAfter rule arrivals) = true) :
    DropFits past n (stateAfter rule arrivals).symbol (stateAfter rule arrivals).block := by
  have hflat : (rule.blocks arrivals).flatten.length = arrivals.length :=
    congrArg List.length (BlockRule.flatten_blocks arrivals)
  have hcount := hends.count
  refine ⟨by rw [toNat_block_stateAfter h, hcount], ?_⟩
  have hsymbol : (stateAfter rule arrivals).symbol.toNat =
      ((rule.blocks arrivals).getLastD []).length - 1 := toNat_symbol_stateAfter h
  rcases List.eq_nil_or_concat' (rule.blocks arrivals) with hbs | ⟨bs, b, hbs⟩
  · rw [hbs] at hflat
    simp at hflat
    omega
  · have hb : 0 < b.length :=
      List.length_pos_iff.mpr (List.ne_nil_of_mem_splitBy (by rw [← BlockRule.blocks, hbs]; simp))
    rcases List.eq_nil_or_concat' bs with rfl | ⟨done, c, rfl⟩
    · rw [isTarget_first hbs] at htarget
      cases htarget
    · -- the end of the block `c` is the latest, and all packets before `b` came before it
      have hc : (rule.blocks arrivals)[done.length]? = some c := by rw [hbs]; simp
      have hb' : (rule.blocks arrivals)[done.length + 1]? = some b := by rw [hbs]; simp
      obtain ⟨e, he, hmarks⟩ := hends.marks hc hb'
      have hlast : (boundaries past).getLast? = some e := by
        rw [List.getLast?_eq_getElem?, hcount, hbs, ← he]
        simp
      have hbefore : e.packetsBefore.toNat = (done ++ [c]).flatten.length := by
        rw [hmarks.packets, hbs, List.take_left' (by simp)]
      rw [hbs, List.flatten_append, List.length_append, ← hbefore] at hflat
      rw [hbs, List.getLastD_concat] at hsymbol
      refine ⟨e, hlast, ?_⟩
      simp at hflat
      omega

/-- The decision on one more arrival tells its drop, if the ends of blocks have been told. -/
theorem tellsDrop {arrivals : List Arrival} {a : Arrival} (h : arrivals.length + 1 < 2 ^ 64)
    {past opening : List TraceEvent}
    (hevents : (decide ⟨rule, stateAfter rule arrivals⟩ a).events =
      opening ++ dropEvents rule (stateAfter rule (arrivals ++ [a])))
    (hopening : ∀ e ∈ opening, e.isDrop = false)
    (hends : BlockEnds (rule.blocks (arrivals ++ [a])) (boundaries (past ++ opening))) :
    (decide ⟨rule, stateAfter rule arrivals⟩ a).TellsDrop past arrivals.length := by
  have hlen : (arrivals ++ [a]).length = arrivals.length + 1 := List.length_append
  have hverdict := verdict_decide rule (stateAfter rule arrivals) a
  rw [next_stateAfter a h] at hverdict
  unfold dropEvents at hevents
  unfold Decision.TellsDrop
  by_cases htarget : isTarget rule (stateAfter rule (arrivals ++ [a])) = true
  · rw [if_pos htarget] at hverdict hevents
    rw [hverdict]
    exact ⟨opening, _, _, hevents, hopening, dropFits (by omega) hlen hends htarget⟩
  · rw [if_neg htarget] at hverdict hevents
    rw [hverdict, hevents, List.append_nil]
    exact hopening

/-! ### The size of blocks -/

theorem dropEvents_first {arrivals b : List Arrival} (hbs : rule.blocks arrivals = [b]) :
    dropEvents rule (stateAfter rule arrivals) = [] := by
  unfold dropEvents
  rw [isTarget_first hbs]
  rfl

theorem sizeReported_stay {arrivals : List Arrival} {a : Arrival} {bs : List (List Arrival)}
    {b : List Arrival} {trace : List TraceEvent} (h : SizeReported rule (bs ++ [b]) trace)
    (hbs : rule.blocks (arrivals ++ [a]) = bs ++ [b ++ [a]]) :
    SizeReported rule (bs ++ [b ++ [a]])
      (trace ++ dropEvents rule (stateAfter rule (arrivals ++ [a]))) := by
  cases bs with
  | nil =>
    rw [dropEvents_first hbs, List.append_nil]
    exact h
  | cons first later =>
    have hlater : later ++ [b] ≠ [] := by simp
    have hlater' : later ++ [b ++ [a]] ≠ [] := by simp
    rw [List.cons_append, sizeReported_later hlater] at h
    rw [List.cons_append, sizeReported_later hlater']
    exact StartsWithSize.append h (isSize_dropEvents rule _)

theorem sizeReported_opens {arrivals : List Arrival} {a : Arrival} {lastSymbol : UInt64}
    {gap : Span} {trace : List TraceEvent} (hlen : arrivals.length < 2 ^ 64)
    (hne : rule.blocks arrivals ≠ []) (h : SizeReported rule (rule.blocks arrivals) trace) :
    SizeReported rule (rule.blocks arrivals ++ [[a]])
      (trace ++ (.blockFinished (.ofNat arrivals.length) lastSymbol gap ::
        sizeEvents rule (stateAfter rule arrivals) ++
          dropEvents rule (stateAfter rule (arrivals ++ [a])))) := by
  obtain ⟨first, later, hbs⟩ := List.exists_cons_of_ne_nil hne
  have hlearned : (stateAfter rule arrivals).learned =
      (BlockRule.learnedSize (rule.blocks arrivals)).map .ofNat := rfl
  have hsymbol : (stateAfter rule arrivals).symbol.toNat =
      ((rule.blocks arrivals).getLastD []).length - 1 := toNat_symbol_stateAfter hlen
  rw [hbs] at h hlearned hsymbol ⊢
  rw [List.cons_append, sizeReported_later (by simp)]
  by_cases hlater : later = []
  · -- the first block ends: nothing has been reported before
    subst hlater
    obtain rfl : trace = [] := h
    have hfirst : 0 < first.length := List.length_pos_iff.mpr
      (List.ne_nil_of_mem_splitBy (by rw [← BlockRule.blocks, hbs]; simp))
    have hsize : (stateAfter rule arrivals).symbol.toNat = first.length - 1 := hsymbol
    have htuned : isTuned rule (stateAfter rule arrivals).symbol = true ↔
        first.length = rule.tunedSize.toNat + 1 := by
      unfold isTuned
      rw [beq_iff_eq, ← UInt64.toNat_inj, hsize]
      omega
    refine ⟨.ofNat arrivals.length, lastSymbol, gap, (stateAfter rule arrivals).symbol,
      dropEvents rule (stateAfter rule (arrivals ++ [a])), ?_, hsize, isSize_dropEvents rule _⟩
    have hnone : (stateAfter rule arrivals).learned = none := hlearned
    unfold sizeEvents
    rw [hnone]
    simp only [htuned, List.nil_append, List.cons_append]
  · -- a later block ends: the size is known
    rw [sizeReported_later hlater] at h
    obtain ⟨second, rest, rfl⟩ := List.exists_cons_of_ne_nil hlater
    have hknown : sizeEvents rule (stateAfter rule arrivals) = [] := by
      unfold sizeEvents
      rw [hlearned]
      rfl
    rw [hknown]
    refine StartsWithSize.append h fun e he => ?_
    rcases List.mem_cons.mp he with rfl | he
    · rfl
    · exact isSize_dropEvents rule _ e he

/-! ### The whole history -/

theorem toNanos_add_since {p a : Arrival} (hs : rule.separates p a = true) :
    p.time.toNanos + (a.time.since p.time).toNanos = a.time.toNanos := by
  have hlt := of_decide_eq_true hs
  rw [Span.toNanos_since]
  omega

/-- One more arrival, if what it reports of blocks is true. -/
theorem Truthful.concat {arrivals : List Arrival} {a : Arrival} (ht : Truthful rule arrivals)
    (h : arrivals.length + 1 < 2 ^ 64) (opening : List TraceEvent)
    (hevents : (decide ⟨rule, stateAfter rule arrivals⟩ a).events =
      opening ++ dropEvents rule (stateAfter rule (arrivals ++ [a])))
    (hopening : ∀ e ∈ opening, e.isDrop = false)
    (hends : BlockEnds (rule.blocks (arrivals ++ [a]))
      (boundaries (trace rule arrivals) ++ boundaries opening))
    (hsize : SizeReported rule (rule.blocks (arrivals ++ [a])) (trace rule arrivals ++
      (opening ++ dropEvents rule (stateAfter rule (arrivals ++ [a]))))) :
    Truthful rule (arrivals ++ [a]) where
  ends := by
    rw [trace_concat a h, hevents, boundaries_append, boundaries_append, boundaries_dropEvents,
      List.append_nil]
    exact hends
  size := by
    rw [trace_concat a h, hevents]
    exact hsize
  drops i d hd := by
    have hlen := length_decisions rule arrivals
    rw [decisions_concat a h] at hd ⊢
    by_cases hi : i < (decisions rule arrivals).length
    · rw [List.getElem?_append_left hi] at hd
      rw [List.take_append_of_le_length (Nat.le_of_lt hi)]
      exact ht.drops i d hd
    · have hlt := (List.getElem?_eq_some_iff.mp hd).1
      rw [List.length_append, List.length_singleton] at hlt
      obtain rfl : i = (decisions rule arrivals).length := by omega
      rw [List.getElem?_concat_length] at hd
      obtain rfl := Option.some.inj hd
      rw [List.take_left, hlen]
      rw [← boundaries_append] at hends
      exact tellsDrop h hevents hopening hends

/-- **One more arrival keeps the trace truthful.** -/
theorem Truthful.next {arrivals : List Arrival} (ht : Truthful rule arrivals) (a : Arrival)
    (h : arrivals.length + 1 < 2 ^ 64) : Truthful rule (arrivals ++ [a]) := by
  rcases hp : arrivals.getLast? with _ | p
  · -- the first packet of all
    obtain rfl := List.getLast?_eq_none_iff.mp hp
    have hbs : rule.blocks ([] ++ [a]) = [[a]] := rfl
    refine ht.concat h [] (events_stay h (by simp)) nofun ?_ ?_
    · rw [hbs]
      exact ⟨rfl, fun hb hb' => by simp at hb'⟩
    · rw [hbs, dropEvents_first hbs]
      exact rfl
  · by_cases hs : rule.separates p a = true
    · -- the packet opens a block
      have hne := BlockRule.blocks_ne_nil rule hp
      have hgrow := BlockRule.blocks_concat_of_separates hp hs
      have hends := ht.ends
      have hsymbol : (stateAfter rule arrivals).symbol.toNat =
          ((rule.blocks arrivals).getLastD []).length - 1 :=
        toNat_symbol_stateAfter (Nat.lt_of_succ_lt h)
      have hpackets : (UInt64.ofNat arrivals.length).toNat = arrivals.length :=
        UInt64.toNat_ofNat_of_lt' (Nat.lt_of_succ_lt h)
      refine ht.concat h (.blockFinished (.ofNat arrivals.length)
        (stateAfter rule arrivals).symbol (a.time.since p.time) ::
          sizeEvents rule (stateAfter rule arrivals)) (events_open h hp hs) ?_ ?_ ?_
      · rintro e (_ | ⟨_, he⟩)
        · rfl
        · exact isDrop_sizeEvents rule _ e he
      · rw [hgrow]
        obtain ⟨bs, b, hbs⟩ := (List.eq_nil_or_concat' _).resolve_left hne
        have hopens : boundaries (.blockFinished (.ofNat arrivals.length)
            (stateAfter rule arrivals).symbol (a.time.since p.time) ::
              sizeEvents rule (stateAfter rule arrivals)) =
            [⟨.ofNat arrivals.length, (stateAfter rule arrivals).symbol, a.time.since p.time⟩] :=
          congrArg (_ :: ·) (boundaries_sizeEvents rule _)
        have hflat : (rule.blocks arrivals).flatten = arrivals := BlockRule.flatten_blocks arrivals
        rw [hopens]
        rw [hbs] at hends hflat hsymbol ⊢
        rw [List.getLastD_concat] at hsymbol
        refine hends.opens ⟨by rw [hflat]; exact hpackets, hsymbol, fun p' hp' q hq => ?_⟩
        have hb : b ≠ [] := List.ne_nil_of_mem (List.mem_of_mem_getLast? hp')
        rw [List.flatten_append, List.flatten_singleton] at hflat
        rw [← List.getLast?_append_of_ne_nil bs.flatten hb, hflat] at hp'
        obtain rfl := Option.mem_unique hp' hp
        obtain rfl : a = q := Option.some.inj hq
        exact toNanos_add_since hs
      · rw [hgrow]
        exact sizeReported_opens (Nat.lt_of_succ_lt h) hne ht.size
    · -- the packet joins the last block
      have hstay : rule.separates p a = false := by simpa using hs
      obtain ⟨bs, b, hbs, hb, hgrow⟩ := BlockRule.blocks_concat_of_not_separates hp hstay
      have hends := ht.ends
      have hsize := ht.size
      rw [hbs] at hends hsize
      refine ht.concat h [] (events_stay h fun x hx => ?_) nofun ?_ ?_
      · obtain rfl := Option.mem_unique hx hp
        exact hstay
      · rw [hgrow]
        exact (List.append_nil (boundaries (trace rule arrivals))).symm ▸ hends.stay hb a
      · rw [hgrow]
        exact sizeReported_stay hsize hgrow

theorem truthful (rule : BlockRule) (arrivals : List Arrival) (h : arrivals.length < 2 ^ 64) :
    Truthful rule arrivals := by
  induction arrivals using List.reverseRecOn with
  | nil => exact ⟨⟨rfl, fun hb => by simp [BlockRule.blocks] at hb⟩, rfl, fun i d hd => by cases hd⟩
  | append_singleton arrivals a ih =>
    have hlen : arrivals.length + 1 < 2 ^ 64 := by simpa using h
    exact (ih (by omega)).next a hlen

/-- **The trace of the block policy tells the truth.**  For fewer than `2 ^ 64` arrivals with any
times, the trace reports the ends of all blocks but the last, in order, each with the packets
before it, the last position in the block and the exact silence; it reports the size of blocks once
and only after the end of the first block, with the offset exactly if it is the tuned size; and
every decision to drop, and no other, reports a drop, whose block and position make up the ordinal
of the packet.  So a reader of the trace who knows the number of packets knows all verdicts. -/
theorem trace_tells_truth (rule : BlockRule) (arrivals : List Arrival)
    (h : arrivals.length < 2 ^ 64) :
    let blocks := rule.blocks arrivals
    let run := (LossPolicy.decideAll (BlockPolicy.mk rule .initial) arrivals).1
    let trace := run.flatMap (·.events)
    BlockEnds blocks (boundaries trace) ∧
    SizeReported rule blocks trace ∧
    (∀ (i : Nat) (d : Decision BlockPolicy), run[i]? = some d →
      d.TellsDrop ((run.take i).flatMap (·.events)) i) ∧
    verdictsOf trace arrivals.length = run.map (·.verdict) := by
  obtain ⟨hends, hsize, hdrops⟩ := truthful rule arrivals h
  have hverdicts := (verdictsOf_trace (decisions rule arrivals) hdrops).1
  rw [length_decisions] at hverdicts
  exact ⟨hends, hsize, hdrops, hverdicts⟩

/-- Two blocks of two packets each: the trace has one event of each kind, and the verdicts are read
off it. -/
theorem trace_of_two_blocks :
    let rule : BlockRule := ⟨500, 1, 1⟩
    let arrivals : List Arrival := [0, 10, 511, 500].map fun ms => ⟨0, .ofMillis ms, 1024⟩
    let run := (LossPolicy.decideAll (BlockPolicy.mk rule .initial) arrivals).1
    arrivals.length < 2 ^ 64 ∧
    BlockEnds (rule.blocks arrivals) (boundaries (run.flatMap (·.events))) ∧
    run.flatMap (·.events) =
      [.blockFinished 2 1 (.ofMillis 501), .blockSizeLearned 1 (some 1), .symbolDropped 1 1] ∧
    verdictsOf (run.flatMap (·.events)) 4 = [.forward, .forward, .forward, .drop] := by
  intro rule arrivals run
  have hlen : arrivals.length < 2 ^ 64 := by decide
  obtain ⟨hends, -, -, hverdicts⟩ := trace_tells_truth rule arrivals hlen
  refine ⟨hlen, hends, by decide, hverdicts.trans ?_⟩
  decide

end BlockPolicy

end LossRelay
