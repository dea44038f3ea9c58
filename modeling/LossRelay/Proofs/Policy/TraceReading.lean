import LossRelay.Policy.Block
import Mathlib.Algebra.GroupWithZero.Nat
import Mathlib.Data.List.Induction

/-!
# Reading a trace

What a reader of the trace of the block policy can learn from it, without the stream: the ends of
blocks, and the ordinals of the packets that were dropped.  If each decision reports a drop exactly
if it is one, and with the right ordinal (`Decision.TellsDrop`), then the verdicts of all decisions
can be told from the trace (`verdictsOf_trace`).
-/

namespace LossRelay

namespace TraceEvent

/-- The end of a block that an event reports. -/
def boundary? : TraceEvent → Option Boundary
  | .blockFinished packets lastSymbol gap => some ⟨packets, lastSymbol, gap⟩
  | _ => none

def isSize : TraceEvent → Bool
  | .blockSizeLearned _ _ => true
  | _ => false

def isDrop : TraceEvent → Bool
  | .symbolDropped _ _ => true
  | _ => false

end TraceEvent

/-- The ends of blocks that a trace reports, in order. -/
def boundaries (trace : List TraceEvent) : List Boundary := trace.filterMap TraceEvent.boundary?

theorem boundaries_append (es fs : List TraceEvent) :
    boundaries (es ++ fs) = boundaries es ++ boundaries fs := List.filterMap_append

/-! ### Ordinals -/

/-- The number of packets before the block that is going on at the end of a trace; `base` is that
number at its start. -/
def blockStart (base : Nat) (trace : List TraceEvent) : Nat :=
  ((boundaries trace).getLast?.map (·.packetsBefore.toNat)).getD base

/-- The ordinals of the packets that a trace reports as dropped: the position in the block comes on
top of the packets before the block. -/
def dropOrdinals (base : Nat) : List TraceEvent → List Nat
  | [] => []
  | .blockFinished packets _ _ :: es => dropOrdinals packets.toNat es
  | .symbolDropped symbol _ :: es => (base + symbol.toNat) :: dropOrdinals base es
  | .blockSizeLearned _ _ :: es => dropOrdinals base es
  | .packet _ _ :: es => dropOrdinals base es

/-- The verdicts on so many packets, as the trace tells them. -/
def verdictsOf (trace : List TraceEvent) (packets : Nat) : List Verdict :=
  (List.range packets).map fun i => if i ∈ dropOrdinals 0 trace then .drop else .forward

theorem blockStart_finished (base : Nat) (packets lastSymbol : UInt64) (gap : Span)
    (es : List TraceEvent) :
    blockStart base (.blockFinished packets lastSymbol gap :: es) =
      blockStart packets.toNat es := by
  have hcons : boundaries (.blockFinished packets lastSymbol gap :: es) =
      ⟨packets, lastSymbol, gap⟩ :: boundaries es := rfl
  unfold blockStart
  rw [hcons, List.getLast?_cons]
  cases (boundaries es).getLast? <;> rfl

theorem blockStart_append (base : Nat) (es fs : List TraceEvent) :
    blockStart base (es ++ fs) = blockStart (blockStart base es) fs := by
  unfold blockStart
  rw [boundaries_append, List.getLast?_append]
  cases (boundaries fs).getLast? <;> rfl

/-- The ordinals of two traces in a row: the second goes on from the block that the first ends in. -/
theorem dropOrdinals_append (base : Nat) (es fs : List TraceEvent) :
    dropOrdinals base (es ++ fs) =
      dropOrdinals base es ++ dropOrdinals (blockStart base es) fs := by
  induction es generalizing base with
  | nil => rfl
  | cons e es ih =>
    cases e with
    | blockFinished packets lastSymbol gap =>
      rw [blockStart_finished]
      exact ih packets.toNat
    | symbolDropped symbol block => exact congrArg ((base + symbol.toNat) :: ·) (ih base)
    | blockSizeLearned size target => exact ih base
    | packet index verdict => exact ih base

theorem dropOrdinals_eq_nil {es : List TraceEvent} (h : ∀ e ∈ es, e.isDrop = false) (base : Nat) :
    dropOrdinals base es = [] := by
  induction es generalizing base with
  | nil => rfl
  | cons e es ih =>
    have htail := ih fun e' he' => h e' (List.mem_cons_of_mem _ he')
    cases e with
    | blockFinished packets lastSymbol gap => exact htail packets.toNat
    | symbolDropped symbol block => cases h _ (List.mem_cons_self ..)
    | blockSizeLearned size target => exact htail base
    | packet index verdict => exact htail base

/-! ### Decisions that tell their drops -/

/-- A reported drop fits the trace before it: its block is the number of blocks reported to have
ended, and its position in the block makes up its ordinal. -/
structure DropFits (past : List TraceEvent) (ordinal : Nat) (symbol block : UInt64) : Prop where
  block : block.toNat = (boundaries past).length
  ordinal : ∃ e ∈ (boundaries past).getLast?, e.packetsBefore.toNat + symbol.toNat = ordinal

/-- A decision to drop reports this once, as the last of its events and so that it fits; no other
decision reports a drop. -/
def Decision.TellsDrop {π : Type} (past : List TraceEvent) (ordinal : Nat) (d : Decision π) :
    Prop :=
  match d.verdict with
  | .forward => ∀ e ∈ d.events, e.isDrop = false
  | .drop => ∃ opening symbol block,
      d.events = opening ++ [.symbolDropped symbol block] ∧
      (∀ e ∈ opening, e.isDrop = false) ∧ DropFits (past ++ opening) ordinal symbol block

variable {π : Type}

theorem Decision.TellsDrop.dropOrdinals {past : List TraceEvent} {n : Nat} {d : Decision π}
    (h : d.TellsDrop past n) : dropOrdinals (blockStart 0 past) d.events =
      if d.verdict = .drop then [n] else [] := by
  unfold TellsDrop at h
  cases hv : d.verdict with
  | forward =>
    rw [hv] at h
    exact dropOrdinals_eq_nil h _
  | drop =>
    rw [hv] at h
    obtain ⟨opening, symbol, block, hevents, hopening, -, e, he, hordinal⟩ := h
    have hstart : blockStart 0 (past ++ opening) = e.packetsBefore.toNat := by
      unfold blockStart
      rw [Option.mem_def.mp he]
      rfl
    rw [hevents, dropOrdinals_append, dropOrdinals_eq_nil hopening, ← blockStart_append, hstart,
      ← hordinal]
    rfl

/-- **The verdicts can be told from the trace** and the number of packets, if every decision tells
its drop. -/
theorem verdictsOf_trace (ds : List (Decision π))
    (h : ∀ (i : Nat) (d : Decision π), ds[i]? = some d →
      d.TellsDrop ((ds.take i).flatMap (·.events)) i) :
    verdictsOf (ds.flatMap (·.events)) ds.length = ds.map (·.verdict) ∧
      ∀ o ∈ dropOrdinals 0 (ds.flatMap (·.events)), o < ds.length := by
  induction ds using List.reverseRecOn with
  | nil => exact ⟨rfl, nofun⟩
  | append_singleton ds d ih =>
    obtain ⟨hverdicts, hlt⟩ := ih fun i d' hd' => by
      have hi : i < ds.length := (List.getElem?_eq_some_iff.mp hd').1
      have htells := h i d' (by rw [List.getElem?_append_left hi, hd'])
      rwa [List.take_append_of_le_length (Nat.le_of_lt hi)] at htells
    have htells := h ds.length d (by simp)
    rw [List.take_left] at htells
    have hordinals := dropOrdinals_append 0 (ds.flatMap (·.events)) d.events
    rw [htells.dropOrdinals] at hordinals
    rw [List.flatMap_append, List.flatMap_singleton, List.length_append, List.length_singleton]
    refine ⟨?_, ?_⟩
    · -- the new ordinal is that of the new packet, so the old verdicts stay
      have hold : ∀ i ∈ List.range ds.length,
          (if i ∈ dropOrdinals 0 (ds.flatMap (·.events) ++ d.events) then Verdict.drop
            else .forward) =
          if i ∈ dropOrdinals 0 (ds.flatMap (·.events)) then .drop else .forward := by
        intro i hi
        have hne : i ≠ ds.length := Nat.ne_of_lt (List.mem_range.mp hi)
        rw [hordinals]
        split <;> simp_all
      have hnew : (if ds.length ∈ dropOrdinals 0 (ds.flatMap (·.events) ++ d.events) then
          Verdict.drop else .forward) = d.verdict := by
        have hnot : ds.length ∉ dropOrdinals 0 (ds.flatMap (·.events)) :=
          fun hmem => Nat.lt_irrefl _ (hlt _ hmem)
        rw [hordinals]
        cases hv : d.verdict <;> simp [hnot]
      unfold verdictsOf at hverdicts ⊢
      rw [List.range_succ, List.map_append, List.map_congr_left hold, hverdicts, List.map_append]
      exact congrArg (ds.map (·.verdict) ++ [·]) hnew
    · intro o ho
      rw [hordinals] at ho
      rcases List.mem_append.mp ho with ho | ho
      · exact Nat.lt_succ_of_lt (hlt o ho)
      · split at ho
        · exact Nat.lt_succ_of_le (Nat.le_of_eq (List.mem_singleton.mp ho))
        · cases ho

end LossRelay
