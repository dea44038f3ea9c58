import LossRelay.Policy.Block
import Mathlib.Data.List.SplitBy

/-!
# The blocks of a stream

The blocks of a whole history of arrivals, said without the state of a policy: the history is cut
before every packet that comes after a long silence.  Beside them stand the two laws by which the
blocks of a history grow with one more arrival, and the fates that the block rule gives to the
packets of a list of blocks.
-/

namespace LossRelay

/-- The silence between two packets in a row is longer than the rule's, in nanoseconds; a step back
in time is no silence. -/
def BlockRule.separates (rule : BlockRule) (a b : Arrival) : Bool :=
  decide (rule.silenceMs.toNat * 1000000 < b.time.toNanos - a.time.toNanos)

/-- **The blocks of a history.**  A packet that a long silence separates from the one before it
opens a block. -/
def BlockRule.blocks (rule : BlockRule) (arrivals : List Arrival) : List (List Arrival) :=
  arrivals.splitBy fun a b => !rule.separates a b

/-- The fates of the packets of a list of blocks.  Nothing of the first block is dropped; if its
last position is the tuned size, the packet at the offset of every later block is. -/
def BlockRule.fates (rule : BlockRule) : List (List Arrival) → List Verdict
  | [] => []
  | first :: later =>
    List.replicate first.length .forward ++ later.flatMap fun block =>
      block.mapIdx fun position _ =>
        if first.length = rule.tunedSize.toNat + 1 ∧ position = rule.offset.toNat then .drop
        else .forward

/-- The last position in the first of at least two blocks. -/
def BlockRule.learnedSize : List (List Arrival) → Option Nat
  | first :: _ :: _ => some (first.length - 1)
  | _ => none

namespace BlockRule

variable {rule : BlockRule}

/-! ### How blocks grow -/

theorem flatten_blocks (arrivals : List Arrival) : (rule.blocks arrivals).flatten = arrivals :=
  List.flatten_splitBy ..

theorem blocks_ne_nil (rule : BlockRule) {arrivals : List Arrival} {p : Arrival}
    (hp : p ∈ arrivals.getLast?) : rule.blocks arrivals ≠ [] :=
  List.splitBy_ne_nil.mpr (List.ne_nil_of_mem (List.mem_of_mem_getLast? hp))

/-- A splitting grows at its last part by an item that is related to the one before it. -/
theorem splitBy_concat {α : Type} {r : α → α → Bool} {l b : List α} {bs : List (List α)} {a : α}
    (h : l.splitBy r = bs ++ [b]) (ha : ∀ x ∈ l.getLast?, r x a = true) :
    (l ++ [a]).splitBy r = bs ++ [b ++ [a]] := by
  obtain ⟨rfl, hnil, hchain, hcut⟩ := List.splitBy_eq_iff.mp h
  have hb : b ≠ [] := by rintro rfl; simp at hnil
  rw [List.splitBy_eq_iff]
  refine ⟨by simp, by simp_all, fun m hm => ?_, ?_⟩
  · -- inside a part: only the last one is new
    rcases List.mem_append.mp hm with hm | hm
    · exact hchain m (List.mem_append_left _ hm)
    · obtain rfl := List.mem_singleton.mp hm
      refine List.isChain_append.mpr ⟨hchain b (by simp), List.isChain_singleton _, ?_⟩
      intro x hx y hy
      obtain rfl : a = y := by simpa using hy
      have hlast : x ∈ (bs ++ [b]).flatten.getLast? := by
        rw [List.flatten_append, List.flatten_singleton, List.getLast?_append_of_ne_nil _ hb]
        exact hx
      exact ha x hlast
  · -- between parts: the last part keeps its head
    obtain ⟨h1, -, h3⟩ := List.isChain_append.mp hcut
    refine List.isChain_append.mpr ⟨h1, List.isChain_singleton _, fun x hx y hy => ?_⟩
    obtain rfl : b ++ [a] = y := by simpa using hy
    obtain ⟨hx', hb', hr⟩ := h3 x hx b (by simp)
    exact ⟨hx', by simp, by rw [List.head_append_of_ne_nil hb']; exact hr⟩

theorem blocks_concat_of_separates {arrivals : List Arrival} {a p : Arrival}
    (hp : p ∈ arrivals.getLast?) (h : rule.separates p a = true) :
    rule.blocks (arrivals ++ [a]) = rule.blocks arrivals ++ [[a]] := by
  have hcut : ∀ x ∈ arrivals.getLast?, (!rule.separates x a) = false := by
    intro x hx
    obtain rfl := Option.mem_unique hx hp
    simp [h]
  exact List.splitBy_append_cons [] hcut

theorem blocks_concat_of_not_separates {arrivals : List Arrival} {a p : Arrival}
    (hp : p ∈ arrivals.getLast?) (h : rule.separates p a = false) :
    ∃ bs b, rule.blocks arrivals = bs ++ [b] ∧ b ≠ [] ∧
      rule.blocks (arrivals ++ [a]) = bs ++ [b ++ [a]] := by
  obtain ⟨bs, b, hbs⟩ : ∃ bs b, rule.blocks arrivals = bs ++ [b] :=
    ⟨_, _, (List.dropLast_append_getLast (blocks_ne_nil rule hp)).symm⟩
  have hb : b ∈ rule.blocks arrivals := by simp [hbs]
  refine ⟨bs, b, hbs, List.ne_nil_of_mem_splitBy hb, splitBy_concat hbs fun x hx => ?_⟩
  obtain rfl := Option.mem_unique hx hp
  simp [h]

/-- A second block fixes the size, and no further block changes it. -/
theorem learnedSize_open {bs : List (List Arrival)} (hbs : bs ≠ []) (b : List Arrival) :
    learnedSize (bs ++ [b]) =
      some ((learnedSize bs).getD ((bs.getLastD []).length - 1)) := by
  rcases bs with _ | ⟨first, _ | ⟨second, later⟩⟩
  · exact absurd rfl hbs
  · rfl
  · rfl

theorem learnedSize_join (bs : List (List Arrival)) (b c : List Arrival) :
    learnedSize (bs ++ [b]) = learnedSize (bs ++ [c]) := by
  rcases bs with _ | ⟨first, _ | ⟨second, later⟩⟩ <;> rfl

/-! ### How fates grow -/

theorem fates_singleton (a : Arrival) : rule.fates [[a]] = [.forward] := by simp [fates]

theorem fates_join_first (b : List Arrival) (a : Arrival) :
    rule.fates [b ++ [a]] = rule.fates [b] ++ [.forward] := by
  simp [fates, List.replicate_succ']

theorem fates_open (first : List Arrival) (later : List (List Arrival)) (a : Arrival) :
    rule.fates (first :: later ++ [[a]]) = rule.fates (first :: later) ++
      [if first.length = rule.tunedSize.toNat + 1 ∧ 0 = rule.offset.toNat then .drop
        else .forward] := by
  simp [fates]

theorem fates_join_later (first : List Arrival) (later : List (List Arrival)) (b : List Arrival)
    (a : Arrival) :
    rule.fates (first :: later ++ [b ++ [a]]) = rule.fates (first :: later ++ [b]) ++
      [if first.length = rule.tunedSize.toNat + 1 ∧ b.length = rule.offset.toNat then .drop
        else .forward] := by
  simp [fates, List.mapIdx_append]

end BlockRule

end LossRelay
