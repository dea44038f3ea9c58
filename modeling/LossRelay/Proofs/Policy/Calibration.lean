import LossRelay.Proofs.Policy.BlockRun

/-!
# Calibrated streams

A stream is calibrated for a block rule if its blocks have the size that the rule is tuned for and
the silences are where the blocks end.  The block policy finds the blocks of such a stream
(`blocks_flatten`), and the offset of the rule is a position in them exactly if the rule is fit to
run.  So what the rule is checked for before it runs is what it needs to drop anything at all
(`drops_offset_iff_fit`).
-/

namespace LossRelay

/-- A stream in blocks of the tuned size: no step in time inside a block is longer than the longest
silence, and every step into the next block is. -/
structure BlockRule.Calibrated (rule : BlockRule) (blocks : List (List Arrival)) : Prop where
  sized : ∀ b ∈ blocks, b.length = rule.tunedSize.toNat + 1
  within : ∀ b ∈ blocks, b.IsChain fun x y =>
    y.time.toNanos ≤ x.time.toNanos + rule.silenceMs.toNat * 1000000
  between : blocks.IsChain fun b c => ∀ x ∈ b.getLast?, ∀ y ∈ c.head?,
    x.time.toNanos + rule.silenceMs.toNat * 1000000 < y.time.toNanos

/-- The fates of the packets of a block of the tuned size of which the packet at the offset is
dropped. -/
def BlockRule.fatesWithLoss (rule : BlockRule) : List Verdict :=
  List.replicate rule.offset.toNat .forward ++
    .drop :: List.replicate (rule.tunedSize.toNat - rule.offset.toNat) .forward

namespace BlockRule

variable {rule : BlockRule}

/-- A rule is fit to run if there is a silence to wait for and the offset is a position in a block
of the tuned size. -/
theorem validate_eq_ok_iff :
    rule.validate = .ok () ↔
      rule.silenceMs ≠ 0 ∧ rule.offset.toNat < rule.tunedSize.toNat + 1 := by
  unfold validate
  split
  · rename_i hsilence
    simp [hsilence]
  · rename_i hsilence
    split
    · rename_i hsize
      have hlt := UInt64.lt_iff_toNat_lt.mp hsize
      exact ⟨nofun, fun h => absurd h.2 (by omega)⟩
    · rename_i hsize
      have hle := UInt64.lt_iff_toNat_lt.not.mp hsize
      exact ⟨fun _ => ⟨hsilence, by omega⟩, fun _ => rfl⟩

/-! ### The blocks of a calibrated stream -/

theorem separates_eq_false_of_le {x y : Arrival}
    (h : y.time.toNanos ≤ x.time.toNanos + rule.silenceMs.toNat * 1000000) :
    rule.separates x y = false := by
  unfold separates
  rw [decide_eq_false_iff_not]
  omega

theorem separates_of_lt {x y : Arrival}
    (h : x.time.toNanos + rule.silenceMs.toNat * 1000000 < y.time.toNanos) :
    rule.separates x y = true := by
  unfold separates
  rw [decide_eq_true_iff]
  omega

theorem Calibrated.ne_nil {blocks : List (List Arrival)} (h : rule.Calibrated blocks) :
    ∀ b ∈ blocks, b ≠ [] := by
  rintro b hb rfl
  have hlength := h.sized [] hb
  rw [List.length_nil] at hlength
  omega

theorem Calibrated.blocks_flatten {blocks : List (List Arrival)} (h : rule.Calibrated blocks) :
    rule.blocks blocks.flatten = blocks := by
  refine List.splitBy_flatten (fun hnil => h.ne_nil [] hnil rfl) ?_ ?_
  · intro b hb
    refine (h.within b hb).imp fun x y hxy => ?_
    rw [separates_eq_false_of_le hxy]
    rfl
  · refine h.between.imp_of_mem_imp fun b c hb hc hbc => ?_
    have hb' := h.ne_nil b hb
    have hc' := h.ne_nil c hc
    refine ⟨hb', hc', ?_⟩
    have hlt := hbc (b.getLast hb') (List.getLast_mem_getLast? hb') (c.head hc')
      (List.head_mem_head? hc')
    rw [separates_of_lt hlt]
    rfl

/-! ### The fates of its packets -/

/-- A block of the tuned size loses the packet at the offset, if the offset is a position in it. -/
theorem mapIdx_of_offset_lt {b : List Arrival} (hb : b.length = rule.tunedSize.toNat + 1)
    (h : rule.offset.toNat < rule.tunedSize.toNat + 1) :
    (b.mapIdx fun position _ => if position = rule.offset.toNat then Verdict.drop else .forward) =
      rule.fatesWithLoss := by
  unfold fatesWithLoss
  apply List.ext_getElem
  · simp only [List.length_mapIdx, List.length_append, List.length_cons, List.length_replicate]
    omega
  · intro i hi hi'
    rw [List.getElem_mapIdx]
    rcases Nat.lt_trichotomy i rule.offset.toNat with hlt | heq | hgt
    · -- in front of the offset
      rw [if_neg (Nat.ne_of_lt hlt), List.getElem_append_left (by simpa using hlt),
        List.getElem_replicate]
    · simp [heq]
    · -- behind the offset
      obtain ⟨j, hj⟩ := Nat.exists_eq_add_of_lt hgt
      rw [if_neg (Nat.ne_of_gt hgt), List.getElem_append_right (by simp; omega)]
      simp [hj, Nat.add_assoc]

theorem mapIdx_of_le_offset {b : List Arrival} (h : b.length ≤ rule.offset.toNat) :
    (b.mapIdx fun position _ => if position = rule.offset.toNat then Verdict.drop else .forward) =
      List.replicate b.length .forward := by
  apply List.ext_getElem
  · simp
  · intro i hi hi'
    have hlt : i < b.length := by simpa using hi
    rw [List.getElem_mapIdx, List.getElem_replicate, if_neg (by omega)]

/-- The fates in a stream of blocks of which the first has the tuned size. -/
theorem fates_tuned {first : List Arrival} (hfirst : first.length = rule.tunedSize.toNat + 1)
    (later : List (List Arrival)) :
    rule.fates (first :: later) = List.replicate first.length .forward ++
      later.flatMap fun b => b.mapIdx fun position _ =>
        if position = rule.offset.toNat then .drop else .forward := by
  simp [fates, hfirst]

theorem Calibrated.fates_of_offset_lt {first : List Arrival} {later : List (List Arrival)}
    (h : rule.Calibrated (first :: later)) (hoffset : rule.offset.toNat < rule.tunedSize.toNat + 1) :
    rule.fates (first :: later) =
      List.replicate first.length .forward ++ later.flatMap fun _ => rule.fatesWithLoss := by
  rw [fates_tuned (h.sized first (List.mem_cons_self ..))]
  congr 1
  refine List.flatMap_congr fun b hb => ?_
  exact mapIdx_of_offset_lt (h.sized b (List.mem_cons_of_mem _ hb)) hoffset

theorem Calibrated.fates_of_lt_offset {first : List Arrival} {later : List (List Arrival)}
    (h : rule.Calibrated (first :: later)) (hoffset : rule.tunedSize.toNat < rule.offset.toNat) :
    rule.fates (first :: later) = List.replicate (first :: later).flatten.length .forward := by
  have hlater : (later.flatMap fun b => b.mapIdx fun position _ =>
      if position = rule.offset.toNat then Verdict.drop else .forward) =
        List.replicate later.flatten.length .forward := by
    rw [← List.map_const', List.map_flatten, ← List.flatMap_def]
    refine List.flatMap_congr fun b hb => ?_
    rw [List.map_const']
    refine mapIdx_of_le_offset ?_
    rw [h.sized b (List.mem_cons_of_mem _ hb)]
    exact hoffset
  rw [fates_tuned (h.sized first (List.mem_cons_self ..)), hlater, List.flatten_cons,
    List.length_append, List.replicate_add]

end BlockRule

namespace BlockPolicy

/-- **A rule is fit to run exactly if it drops something of a calibrated stream.**  Nothing of the
first block is dropped.  If the rule is fit to run, every later block loses exactly the packet at
the offset; otherwise no packet of the stream is dropped. -/
theorem drops_offset_iff_fit {rule : BlockRule} {first : List Arrival} {later : List (List Arrival)}
    (hsilence : rule.silenceMs ≠ 0) (hlater : later ≠ [])
    (hstream : rule.Calibrated (first :: later)) (hlen : (first :: later).flatten.length < 2 ^ 64) :
    let verdicts := (LossPolicy.decideAll (BlockPolicy.mk rule .initial)
      (first :: later).flatten).1.map (·.verdict)
    (rule.validate = .ok () →
      verdicts = List.replicate first.length .forward ++ later.flatMap fun _ => rule.fatesWithLoss) ∧
    (∀ e, rule.validate = .error e →
      verdicts = List.replicate (first :: later).flatten.length .forward) ∧
    (rule.validate = .ok () ↔ .drop ∈ verdicts) := by
  intro verdicts
  have hverdicts : verdicts = rule.fates (first :: later) := by
    have hfates := (decideAll_stateAfter rule (first :: later).flatten hlen).2
    rwa [hstream.blocks_flatten] at hfates
  have hfit : rule.validate = .ok () → verdicts =
      List.replicate first.length .forward ++ later.flatMap fun _ => rule.fatesWithLoss := by
    intro hok
    rw [hverdicts]
    exact hstream.fates_of_offset_lt (BlockRule.validate_eq_ok_iff.mp hok).2
  have hunfit : rule.validate ≠ .ok () →
      verdicts = List.replicate (first :: later).flatten.length .forward := by
    intro hne
    have hoffset : ¬ rule.offset.toNat < rule.tunedSize.toNat + 1 := fun hlt =>
      hne (BlockRule.validate_eq_ok_iff.mpr ⟨hsilence, hlt⟩)
    rw [hverdicts]
    exact hstream.fates_of_lt_offset (by omega)
  refine ⟨hfit, fun e he => hunfit (by simp [he]), fun hok => ?_, fun hdrop => ?_⟩
  · -- a later block has the loss
    obtain ⟨b, hb⟩ := List.exists_mem_of_ne_nil later hlater
    have hloss : Verdict.drop ∈ rule.fatesWithLoss := by simp [BlockRule.fatesWithLoss]
    rw [hfit hok]
    exact List.mem_append_right _ (List.mem_flatMap.mpr ⟨b, hb, hloss⟩)
  · by_contra hne
    rw [hunfit hne] at hdrop
    exact Verdict.noConfusion (List.eq_of_mem_replicate hdrop)

/-- Two blocks of three packets, tuned to the last position: the last packet is dropped. -/
theorem drops_offset_of_two_blocks :
    let rule : BlockRule := ⟨500, 2, 2⟩
    let block (times : List UInt64) : List Arrival := times.map fun ms => ⟨0, .ofMillis ms, 1024⟩
    let first := block [0, 10, 510]
    let later := [block [1011, 1000, 1500]]
    rule.silenceMs ≠ 0 ∧ later ≠ [] ∧ rule.Calibrated (first :: later) ∧
    (first :: later).flatten.length < 2 ^ 64 ∧
    (LossPolicy.decideAll (BlockPolicy.mk rule .initial) (first :: later).flatten).1.map
      (·.verdict) = [.forward, .forward, .forward, .forward, .forward, .drop] := by
  intro rule block first later
  have hsilence : rule.silenceMs ≠ 0 := by decide
  have hlater : later ≠ [] := List.cons_ne_nil _ _
  have hstream : rule.Calibrated (first :: later) := by
    refine ⟨by decide, by decide, List.isChain_pair.mpr ?_⟩
    rintro x ⟨⟩ y ⟨⟩
    decide
  have hlen : (first :: later).flatten.length < 2 ^ 64 := by decide
  have hok : rule.validate = .ok () := rfl
  obtain ⟨hfit, -, -⟩ := drops_offset_iff_fit hsilence hlater hstream hlen
  exact ⟨hsilence, hlater, hstream, hlen, (hfit hok).trans rfl⟩

end BlockPolicy

end LossRelay
