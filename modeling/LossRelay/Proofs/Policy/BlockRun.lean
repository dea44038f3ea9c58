import LossRelay.Proofs.Nanoseconds
import LossRelay.Proofs.Policy.Blocks
import LossRelay.Proofs.Policy.Decisions
import Mathlib.Algebra.BigOperators.Group.List.Basic

/-!
# The block policy over a history

The policy works packet by packet on five fields; the blocks of a history are said of the history
as a whole.  `BlockPolicy.stateAfter` reads the five fields off the blocks, `next_stateAfter` shows
that one decision keeps this reading, and `decideAll_eq_fates` is what follows for a whole history:
the verdicts are the fates of the blocks and the state is their summary.
-/

namespace LossRelay.BlockPolicy

variable {rule : BlockRule}

/-! ### One decision -/

/-- The decision once the packet has been counted and the end of a block learned. -/
def close (rule : BlockRule) (s : BlockState) (now : Span) (events : List TraceEvent)
    (measurements : List Measurement) : Decision BlockPolicy where
  verdict := if isTarget rule s then .drop else .forward
  next := ⟨rule, { s with latest := some now }⟩
  events := events ++ if isTarget rule s then [.symbolDropped s.symbol s.block] else []
  measurements

theorem decide_of_no_boundary {s t : BlockState} {a : Arrival}
    (h : s.observe a.time rule.silence = (t, none)) :
    decide ⟨rule, s⟩ a = close rule t a.time [] [] := by
  unfold decide close
  simp only [h]
  by_cases ht : isTarget rule t = true <;> simp [ht]

theorem decide_of_boundary {s t : BlockState} {b : Boundary} {a : Arrival}
    (h : s.observe a.time rule.silence = (t, some b)) :
    decide ⟨rule, s⟩ a =
      close rule (learn rule t b).1 a.time (learn rule t b).2.1 (learn rule t b).2.2 := by
  unfold decide close
  simp only [h]
  by_cases ht : isTarget rule (learn rule t b).1 = true <;> simp [ht]

/-- A packet ends a block if it is not the first and comes after a long silence. -/
theorem observe_boundary (s : BlockState) (now silence : Span) :
    (s.observe now silence).2 =
      if 1 < s.packets + 1 ∧ silence < s.gapBefore now then
        some ⟨s.packets, s.symbol, s.gapBefore now⟩
      else none := by
  unfold BlockState.observe
  dsimp only
  split
  · simp
  · split <;> rfl

theorem observe_block (s : BlockState) (now silence : Span) :
    (s.observe now silence).1.block =
      s.block + if (s.observe now silence).2.isSome then 1 else 0 := by
  unfold BlockState.observe
  dsimp only
  split
  · rfl
  · split <;> exact (UInt64.add_zero _).symm

theorem observe_learned (s : BlockState) (now silence : Span) :
    (s.observe now silence).1.learned = s.learned := by
  unfold BlockState.observe
  dsimp only
  split
  · rfl
  · split <;> rfl

/-- The verdict is read off the state that the decision leaves. -/
theorem verdict_decide (rule : BlockRule) (s : BlockState) (a : Arrival) :
    (decide ⟨rule, s⟩ a).verdict =
      if isTarget rule (decide ⟨rule, s⟩ a).next.state then .drop else .forward := by
  rcases h : s.observe a.time rule.silence with ⟨t, _ | b⟩
  · rw [decide_of_no_boundary h]
    rfl
  · rw [decide_of_boundary h]
    rfl

theorem next_first {s : BlockState} {a : Arrival} (hs : s.packets = 0) :
    (decide ⟨rule, s⟩ a).next = ⟨rule, { s with packets := 1, latest := some a.time }⟩ := by
  have h : s.observe a.time rule.silence = ({ s with packets := 1 }, none) := by
    simp [BlockState.observe, hs]
  rw [decide_of_no_boundary h]
  rfl

theorem next_within {s : BlockState} {a : Arrival} (hs : 1 < s.packets + 1)
    (hgap : ¬ rule.silence < s.gapBefore a.time) :
    (decide ⟨rule, s⟩ a).next = ⟨rule,
      { s with packets := s.packets + 1, symbol := s.symbol + 1, latest := some a.time }⟩ := by
  have h : s.observe a.time rule.silence =
      ({ s with packets := s.packets + 1, symbol := s.symbol + 1 }, none) := by
    simp [BlockState.observe, hs, hgap]
  rw [decide_of_no_boundary h]
  rfl

/-- A packet after a long silence has position zero in the next block, and the size of blocks is
known from now on. -/
theorem next_boundary {s : BlockState} {a : Arrival} (hs : 1 < s.packets + 1)
    (hgap : rule.silence < s.gapBefore a.time) :
    (decide ⟨rule, s⟩ a).next = ⟨rule,
      { symbol := 0
        block := s.block + 1
        learned := some (s.learned.getD s.symbol)
        latest := some a.time
        packets := s.packets + 1 }⟩ := by
  have h : s.observe a.time rule.silence =
      ({ s with packets := s.packets + 1, symbol := 0, block := s.block + 1 },
        some ⟨s.packets + 1 - 1, s.symbol, s.gapBefore a.time⟩) := by
    simp [BlockState.observe, hs, hgap]
  rw [decide_of_boundary h]
  rcases hl : s.learned with _ | n <;> simp [close, learn]

/-- The long silences that the policy measures are those that separate blocks. -/
theorem separates_iff {a b : Arrival} :
    rule.separates a b = true ↔ rule.silence < b.time.since a.time := by
  unfold BlockRule.separates BlockRule.silence
  rw [Span.lt_iff_toNanos_lt, Span.toNanos_since, Span.toNanos_ofMillis, decide_eq_true_iff]

/-! ### The state after a history -/

/-- The state that a history leads to, read off its blocks. -/
def stateAfter (rule : BlockRule) (arrivals : List Arrival) : BlockState where
  symbol := .ofNat (((rule.blocks arrivals).getLastD []).length - 1)
  block := .ofNat ((rule.blocks arrivals).length - 1)
  learned := (BlockRule.learnedSize (rule.blocks arrivals)).map .ofNat
  latest := arrivals.getLast?.map (·.time)
  packets := .ofNat arrivals.length

theorem ofNat_pred_succ {n : Nat} (h : 0 < n) : UInt64.ofNat (n - 1) + 1 = UInt64.ofNat n := by
  rw [← UInt64.ofNat_one, ← UInt64.ofNat_add, Nat.sub_add_cancel h]

theorem one_lt_ofNat_succ {n : Nat} (h0 : 0 < n) (h : n + 1 < 2 ^ 64) :
    1 < UInt64.ofNat n + 1 := by
  rw [UInt64.lt_iff_toNat_lt, ← UInt64.ofNat_one, ← UInt64.ofNat_add,
    UInt64.toNat_ofNat_of_lt' h]
  simpa using h0

theorem stateAfter_concat_of_separates {arrivals : List Arrival} {a p : Arrival}
    (hp : p ∈ arrivals.getLast?) (h : rule.separates p a = true) :
    stateAfter rule (arrivals ++ [a]) =
      { symbol := 0
        block := (stateAfter rule arrivals).block + 1
        learned := some ((stateAfter rule arrivals).learned.getD (stateAfter rule arrivals).symbol)
        latest := some a.time
        packets := (stateAfter rule arrivals).packets + 1 } := by
  have hne := BlockRule.blocks_ne_nil rule hp
  have hgrow := BlockRule.blocks_concat_of_separates hp h
  have hblock := ofNat_pred_succ (List.length_pos_iff.mpr hne)
  unfold stateAfter
  rw [hgrow, BlockRule.learnedSize_open hne]
  simp only [BlockState.mk.injEq]
  refine ⟨by simp, by simp [hblock], ?_, by simp, by simp⟩
  cases BlockRule.learnedSize (rule.blocks arrivals) <;> rfl

theorem stateAfter_concat_of_not_separates {arrivals : List Arrival} {a p : Arrival}
    (hp : p ∈ arrivals.getLast?) (h : rule.separates p a = false) :
    stateAfter rule (arrivals ++ [a]) =
      { stateAfter rule arrivals with
        packets := (stateAfter rule arrivals).packets + 1
        symbol := (stateAfter rule arrivals).symbol + 1
        latest := some a.time } := by
  obtain ⟨bs, b, hbs, hb, hgrow⟩ := BlockRule.blocks_concat_of_not_separates hp h
  have hsymbol := ofNat_pred_succ (List.length_pos_iff.mpr hb)
  unfold stateAfter
  rw [hgrow, hbs, BlockRule.learnedSize_join bs b (b ++ [a])]
  simp only [BlockState.mk.injEq]
  exact ⟨by simp [hsymbol], by simp, trivial, by simp, by simp⟩

/-- **One decision keeps the reading.**  From the state after a history it leads to the state after
the history with one more arrival. -/
theorem next_stateAfter {arrivals : List Arrival} (a : Arrival)
    (h : arrivals.length + 1 < 2 ^ 64) :
    (decide ⟨rule, stateAfter rule arrivals⟩ a).next =
      ⟨rule, stateAfter rule (arrivals ++ [a])⟩ := by
  rcases hp : arrivals.getLast? with _ | p
  · obtain rfl := List.getLast?_eq_none_iff.mp hp
    exact next_first rfl
  · have hpos : 0 < arrivals.length :=
      List.length_pos_of_mem (List.mem_of_mem_getLast? (Option.mem_def.mpr hp))
    have hcount : 1 < (stateAfter rule arrivals).packets + 1 := one_lt_ofNat_succ hpos h
    have hgap : (stateAfter rule arrivals).gapBefore a.time = a.time.since p.time := by
      simp [BlockState.gapBefore, stateAfter, hp]
    by_cases hs : rule.separates p a = true
    · rw [stateAfter_concat_of_separates hp hs, next_boundary hcount]
      rw [hgap]
      exact separates_iff.mp hs
    · rw [stateAfter_concat_of_not_separates hp (by simpa using hs), next_within hcount]
      rw [hgap]
      exact fun hlt => hs (separates_iff.mpr hlt)

/-! ### The verdict after a history -/

theorem length_block_le {arrivals b : List Arrival} (hb : b ∈ rule.blocks arrivals) :
    b.length ≤ arrivals.length := by
  have h := (List.sublist_flatten_of_mem hb).length_le
  rwa [BlockRule.flatten_blocks] at h

theorem ofNat_beq_iff {n : Nat} (h : n < 2 ^ 64) (w : UInt64) :
    (UInt64.ofNat n == w) = true ↔ n = w.toNat := by
  rw [beq_iff_eq, ← UInt64.toNat_inj, UInt64.toNat_ofNat_of_lt' h]

theorem isTarget_first {arrivals b : List Arrival} (hbs : rule.blocks arrivals = [b]) :
    isTarget rule (stateAfter rule arrivals) = false := by
  simp [isTarget, stateAfter, hbs, BlockRule.learnedSize]

/-- In a later block the latest packet is the target if the first block has the tuned size and the
position is the offset. -/
theorem isTarget_later {arrivals first b : List Arrival} {later : List (List Arrival)}
    (h : arrivals.length < 2 ^ 64) (hbs : rule.blocks arrivals = first :: later ++ [b]) :
    isTarget rule (stateAfter rule arrivals) = true ↔
      first.length = rule.tunedSize.toNat + 1 ∧ b.length - 1 = rule.offset.toNat := by
  have hf : first ∈ rule.blocks arrivals := by simp [hbs]
  have hfpos : 0 < first.length := List.length_pos_iff.mpr (List.ne_nil_of_mem_splitBy hf)
  have hfle := length_block_le hf
  have hb : b ∈ rule.blocks arrivals := by simp [hbs]
  have hble := length_block_le hb
  have hlearned : (stateAfter rule arrivals).learned = some (.ofNat (first.length - 1)) := by
    cases later <;> simp [stateAfter, hbs, BlockRule.learnedSize]
  have hsymbol : (stateAfter rule arrivals).symbol = .ofNat (b.length - 1) := by
    unfold stateAfter
    rw [hbs, List.getLastD_concat]
  unfold isTarget isTuned
  rw [hlearned, hsymbol]
  dsimp only
  rw [Bool.and_eq_true, ofNat_beq_iff (by omega), ofNat_beq_iff (by omega)]
  omega

/-- The verdict on one more packet is its fate in the blocks. -/
theorem fates_concat (arrivals : List Arrival) (a : Arrival) (h : arrivals.length + 1 < 2 ^ 64) :
    rule.fates (rule.blocks (arrivals ++ [a])) =
      rule.fates (rule.blocks arrivals) ++
        [if isTarget rule (stateAfter rule (arrivals ++ [a])) then .drop else .forward] := by
  have hlen : (arrivals ++ [a]).length < 2 ^ 64 := by simpa using h
  rcases hp : arrivals.getLast? with _ | p
  · obtain rfl := List.getLast?_eq_none_iff.mp hp
    have hbs : rule.blocks ([] ++ [a]) = [[a]] := rfl
    rw [isTarget_first hbs, hbs]
    exact BlockRule.fates_singleton a
  · by_cases hs : rule.separates p a = true
    · -- the packet opens a block
      obtain ⟨first, later, hbs⟩ :=
        List.exists_cons_of_ne_nil (BlockRule.blocks_ne_nil rule hp)
      have hgrow := BlockRule.blocks_concat_of_separates hp hs
      rw [hbs] at hgrow
      rw [hgrow, hbs, BlockRule.fates_open]
      simp only [isTarget_later hlen hgrow, List.length_singleton, Nat.sub_self]
    · -- the packet joins the last block
      obtain ⟨bs, b, hbs, hb, hgrow⟩ :=
        BlockRule.blocks_concat_of_not_separates hp (by simpa using hs)
      rcases bs with _ | ⟨first, later⟩
      · rw [isTarget_first hgrow, hgrow, hbs]
        exact BlockRule.fates_join_first b a
      · rw [hgrow, hbs, BlockRule.fates_join_later]
        simp only [isTarget_later hlen hgrow, List.length_append, List.length_singleton,
          Nat.add_sub_cancel]

/-! ### The whole history -/

theorem length_le_length_flatten {α : Type} {ls : List (List α)} (h : ∀ l ∈ ls, l ≠ []) :
    ls.length ≤ ls.flatten.length := by
  rw [List.length_flatten, ← List.length_map List.length]
  refine List.length_le_sum_of_one_le _ fun n hn => ?_
  obtain ⟨l, hl, rfl⟩ := List.mem_map.mp hn
  exact List.length_pos_iff.mpr (h l hl)

theorem length_blocks_le (rule : BlockRule) (arrivals : List Arrival) :
    (rule.blocks arrivals).length ≤ arrivals.length := by
  have hle := length_le_length_flatten fun b (hb : b ∈ rule.blocks arrivals) =>
    List.ne_nil_of_mem_splitBy hb
  rwa [BlockRule.flatten_blocks] at hle

theorem toNat_symbol_stateAfter {arrivals : List Arrival} (h : arrivals.length < 2 ^ 64) :
    (stateAfter rule arrivals).symbol.toNat = ((rule.blocks arrivals).getLastD []).length - 1 := by
  have hle : ((rule.blocks arrivals).getLastD []).length ≤ arrivals.length := by
    rcases List.eq_nil_or_concat' (rule.blocks arrivals) with hbs | ⟨bs, b, hbs⟩
    · simp [hbs]
    · have hb : b ∈ rule.blocks arrivals := by simp [hbs]
      rw [hbs, List.getLastD_concat]
      exact length_block_le hb
  exact UInt64.toNat_ofNat_of_lt' (Nat.lt_of_le_of_lt (by omega) h)

theorem toNat_learned_stateAfter {arrivals : List Arrival} (h : arrivals.length < 2 ^ 64) :
    (stateAfter rule arrivals).learned.map UInt64.toNat =
      BlockRule.learnedSize (rule.blocks arrivals) := by
  unfold stateAfter
  rcases hbs : rule.blocks arrivals with _ | ⟨first, _ | ⟨second, later⟩⟩
  · rfl
  · rfl
  · have hf : first ∈ rule.blocks arrivals := by simp [hbs]
    have hle := length_block_le hf
    exact congrArg some (UInt64.toNat_ofNat_of_lt' (Nat.lt_of_le_of_lt (by omega) h))

/-- The state after a whole history and the verdicts on it, both read off the blocks. -/
theorem decideAll_stateAfter (rule : BlockRule) (arrivals : List Arrival)
    (h : arrivals.length < 2 ^ 64) :
    (LossPolicy.decideAll (BlockPolicy.mk rule .initial) arrivals).2 =
        ⟨rule, stateAfter rule arrivals⟩ ∧
      (LossPolicy.decideAll (BlockPolicy.mk rule .initial) arrivals).1.map (·.verdict) =
        rule.fates (rule.blocks arrivals) := by
  induction arrivals using List.reverseRecOn with
  | nil => exact ⟨rfl, rfl⟩
  | append_singleton arrivals a ih =>
    have hlen : arrivals.length + 1 < 2 ^ 64 := by simpa using h
    obtain ⟨hstate, hverdicts⟩ := ih (by omega)
    have hnext : (LossPolicy.decide (BlockPolicy.mk rule (stateAfter rule arrivals)) a).next =
        ⟨rule, stateAfter rule (arrivals ++ [a])⟩ := next_stateAfter a hlen
    rw [LossPolicy.decideAll_concat, hstate]
    have hverdict := verdict_decide rule (stateAfter rule arrivals) a
    rw [next_stateAfter a hlen] at hverdict
    refine ⟨hnext, ?_⟩
    rw [List.map_append, hverdicts, fates_concat arrivals a hlen, List.map_singleton]
    exact congrArg (rule.fates (rule.blocks arrivals) ++ [·]) hverdict

/-- **The block policy drops what the blocks of the stream say.**  For fewer than `2 ^ 64` arrivals
with any times, the verdicts are the fates of the packets block by block, and the state counts the
packets, the blocks but the first, and the packets but the first of the last block; it holds the
last position of the first block as soon as there is a second one. -/
theorem decideAll_eq_fates (rule : BlockRule) (arrivals : List Arrival)
    (h : arrivals.length < 2 ^ 64) :
    let blocks := rule.blocks arrivals
    let run := LossPolicy.decideAll (BlockPolicy.mk rule .initial) arrivals
    run.1.map (·.verdict) = rule.fates blocks ∧
    run.2.rule = rule ∧
    run.2.state.packets.toNat = arrivals.length ∧
    run.2.state.block.toNat = blocks.length - 1 ∧
    run.2.state.symbol.toNat = (blocks.getLastD []).length - 1 ∧
    run.2.state.learned.map UInt64.toNat = BlockRule.learnedSize blocks ∧
    run.2.state.latest = arrivals.getLast?.map (·.time) := by
  obtain ⟨hstate, hverdicts⟩ := decideAll_stateAfter rule arrivals h
  have hblocks := length_blocks_le rule arrivals
  simp only [hstate, hverdicts]
  refine ⟨trivial, trivial, ?_, ?_, ?_, ?_, rfl⟩
  · exact UInt64.toNat_ofNat_of_lt' h
  · exact UInt64.toNat_ofNat_of_lt' (Nat.lt_of_le_of_lt (by omega) h)
  · exact toNat_symbol_stateAfter h
  · exact toNat_learned_stateAfter h

/-- Two blocks of two packets each, tuned to the second position: the last packet is dropped. -/
theorem decideAll_two_blocks :
    let rule : BlockRule := ⟨500, 1, 1⟩
    let arrivals : List Arrival := [0, 10, 511, 500].map fun ms => ⟨0, .ofMillis ms, 1024⟩
    arrivals.length < 2 ^ 64 ∧
    (LossPolicy.decideAll (BlockPolicy.mk rule .initial) arrivals).1.map (·.verdict) =
      [.forward, .forward, .forward, .drop] ∧
    (LossPolicy.decideAll (BlockPolicy.mk rule .initial) arrivals).2.state.block.toNat = 1 ∧
    (LossPolicy.decideAll (BlockPolicy.mk rule .initial) arrivals).2.state.learned.map
      UInt64.toNat = some 1 := by
  intro rule arrivals
  have hlen : arrivals.length < 2 ^ 64 := by decide
  obtain ⟨hverdicts, -, -, hblock, -, hlearned, -⟩ := decideAll_eq_fates rule arrivals hlen
  refine ⟨hlen, ?_, ?_, ?_⟩
  · rw [hverdicts]
    decide
  · rw [hblock]
    decide
  · rw [hlearned]
    decide

end LossRelay.BlockPolicy
