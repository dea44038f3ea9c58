import LossRelay.Proofs.Relay.Script
import Mathlib.Data.List.DropRight
import Mathlib.Data.List.Infix

/-!
# Streaks of failed receives

Failed receives in a row, as a property of a whole script: a script contains a streak of `m`
failures if `m` failures stand in it one right after the other.  A script that grows by a delivery
gets a streak at its end or nowhere (`hasStreak_concat`), which is what a counter of the failures at
the end can see.
-/

namespace LossRelay

def Delivery.isFault : Delivery → Bool
  | .datagram .. => false
  | .fault _ => true

/-- A script contains `m` failures in a row. -/
def HasStreak (m : Nat) (script : List Delivery) : Prop :=
  ∃ causes : List IoFault, causes.length = m ∧ causes.map Delivery.fault <:+: script

/-- The number of failures in a row at the end of a script. -/
def trailing (script : List Delivery) : Nat := (script.rtakeWhile Delivery.isFault).length

/-- The failures of a script, each with its position in its streak, from one on. -/
def positioned (script : List Delivery) : List (Nat × IoFault) :=
  script.inits.filterMap fun part =>
    (part.getLast?.bind Delivery.fault?).map fun cause => (trailing part, cause)

/-! ### The end of a script -/

theorem trailing_concat_datagram (script : List Delivery) (payload : List UInt8) (time : Span)
    (source : Endpoint) :
    trailing (script ++ [.datagram payload time source]) = 0 := by
  unfold trailing
  rw [List.rtakeWhile_concat]
  rfl

theorem trailing_concat_fault (script : List Delivery) (cause : IoFault) :
    trailing (script ++ [.fault cause]) = trailing script + 1 := by
  unfold trailing
  rw [List.rtakeWhile_concat_pos _ _ _ rfl, List.length_append, List.length_singleton]

theorem positioned_concat_datagram (script : List Delivery) (payload : List UInt8) (time : Span)
    (source : Endpoint) :
    positioned (script ++ [.datagram payload time source]) = positioned script := by
  unfold positioned
  rw [List.inits_append]
  simp [Delivery.fault?]

theorem positioned_concat_fault (script : List Delivery) (cause : IoFault) :
    positioned (script ++ [.fault cause]) =
      positioned script ++ [(trailing script + 1, cause)] := by
  unfold positioned
  rw [List.inits_append]
  simp [Delivery.fault?, trailing_concat_fault]

/-! ### Streaks -/

/-- There are `m` failures at the end if and only if the failures there are at least `m`. -/
theorem exists_suffix_iff {m : Nat} {script : List Delivery} :
    (∃ causes : List IoFault, causes.length = m ∧ causes.map Delivery.fault <:+ script) ↔
      m ≤ trailing script := by
  induction script using List.reverseRecOn generalizing m with
  | nil =>
    constructor
    · rintro ⟨causes, rfl, h⟩
      have := List.suffix_nil.mp h
      simp_all
    · intro h
      exact ⟨[], (Nat.le_zero.mp h).symm, List.suffix_rfl⟩
  | append_singleton script d ih =>
    cases d with
    | datagram payload time source =>
      rw [trailing_concat_datagram]
      constructor
      · rintro ⟨causes, rfl, h⟩
        rcases List.suffix_concat_iff.mp h with h | ⟨t, ht, -⟩
        · simp_all
        · -- the last of the failures would be a datagram
          have hmem : Delivery.datagram payload time source ∈ causes.map Delivery.fault := by simp [ht]
          simp at hmem
      · intro h
        exact ⟨[], (Nat.le_zero.mp h).symm, List.nil_suffix⟩
    | fault cause =>
      rw [trailing_concat_fault]
      constructor
      · rintro ⟨causes, rfl, h⟩
        rcases List.suffix_concat_iff.mp h with h | ⟨t, ht, hsuffix⟩
        · simp_all
        · obtain ⟨init, last, rfl, rfl, -⟩ := List.map_eq_append_iff.mp ht
          have hlast := congrArg List.length ht
          have hinit := ih.mp ⟨init, rfl, hsuffix⟩
          simp only [List.length_map, List.length_append, List.length_singleton] at hlast ⊢
          omega
      · intro h
        rcases m with _ | m
        · exact ⟨[], rfl, List.nil_suffix⟩
        · obtain ⟨causes, hlen, hsuffix⟩ := ih.mpr (Nat.le_of_succ_le_succ h)
          refine ⟨causes ++ [cause], by simp [hlen], ?_⟩
          rw [List.map_append]
          exact List.suffix_concat_iff.mpr (Or.inr ⟨_, rfl, hsuffix⟩)

/-- **A streak comes up at the end.** -/
theorem hasStreak_concat {m : Nat} {script : List Delivery} {d : Delivery} :
    HasStreak m (script ++ [d]) ↔ m ≤ trailing (script ++ [d]) ∨ HasStreak m script := by
  rw [← exists_suffix_iff]
  unfold HasStreak
  constructor
  · rintro ⟨causes, hlen, h⟩
    rcases List.infix_concat_iff.mp h with h | h
    · exact Or.inl ⟨causes, hlen, h⟩
    · exact Or.inr ⟨causes, hlen, h⟩
  · rintro (⟨causes, hlen, h⟩ | ⟨causes, hlen, h⟩)
    · exact ⟨causes, hlen, h.isInfix⟩
    · exact ⟨causes, hlen, List.infix_concat_iff.mpr (Or.inr h)⟩

theorem trailing_lt {m : Nat} {script : List Delivery} (h : ¬ HasStreak m script) :
    trailing script < m := by
  by_contra hle
  obtain ⟨causes, hlen, hsuffix⟩ := exists_suffix_iff.mpr (Nat.not_lt.mp hle)
  exact h ⟨causes, hlen, hsuffix.isInfix⟩

theorem not_hasStreak_nil {m : Nat} (hm : 0 < m) : ¬ HasStreak m [] := by
  rintro ⟨causes, rfl, h⟩
  have := List.infix_nil.mp h
  simp_all

theorem not_hasStreak_of_no_fault {m : Nat} (hm : 0 < m) {script : List Delivery}
    (h : ∀ d ∈ script, d.isFault = false) : ¬ HasStreak m script := by
  rintro ⟨causes, rfl, hstreak⟩
  obtain ⟨cause, hcause⟩ := List.exists_mem_of_length_pos hm
  have hfault := h _ (hstreak.subset (List.mem_map_of_mem hcause))
  cases hfault

/-- A script contains a streak if and only if some first part of it ends with one. -/
theorem hasStreak_iff {m : Nat} {script : List Delivery} :
    HasStreak m script ↔ ∃ part ∈ script.inits, m ≤ trailing part := by
  simp only [← exists_suffix_iff, List.mem_inits]
  unfold HasStreak
  constructor
  · rintro ⟨causes, hlen, h⟩
    obtain ⟨part, hend, hpart⟩ := List.infix_iff_suffix_prefix.mp h
    exact ⟨part, hpart, causes, hlen, hend⟩
  · rintro ⟨part, hpart, causes, hlen, hend⟩
    exact ⟨causes, hlen, List.infix_iff_suffix_prefix.mpr ⟨part, hend, hpart⟩⟩

instance (m : Nat) (script : List Delivery) : Decidable (HasStreak m script) :=
  decidable_of_iff _ hasStreak_iff.symm

end LossRelay
