/-!
# Sets of packet indices

A set is the strictly ascending list of its members, so two sets with the same members are equal.
-/

namespace LossRelay

/-- A finite set of packet indices. -/
structure IndexSet where
  members : List UInt64
  ascending : members.Pairwise (· < ·)
  deriving DecidableEq

namespace IndexSet

def empty : IndexSet := ⟨[], List.Pairwise.nil⟩

instance : Inhabited IndexSet := ⟨empty⟩

/-- A new member takes its place in an ascending list. -/
def place (x : UInt64) : List UInt64 → List UInt64
  | [] => [x]
  | y :: ys => if x < y then x :: y :: ys else if x = y then y :: ys else y :: place x ys

theorem mem_place {x z : UInt64} {ys : List UInt64} : z ∈ place x ys ↔ z = x ∨ z ∈ ys := by
  induction ys with
  | nil => simp [place]
  | cons y ys ih =>
    unfold place
    split
    · simp
    · split
      · rename_i h; subst h; simp
      · simp only [List.mem_cons, ih]
        constructor
        · rintro (h | h | h)
          · exact Or.inr (Or.inl h)
          · exact Or.inl h
          · exact Or.inr (Or.inr h)
        · rintro (h | h | h)
          · exact Or.inr (Or.inl h)
          · exact Or.inl h
          · exact Or.inr (Or.inr h)

theorem place_ascending {x : UInt64} {ys : List UInt64} (h : ys.Pairwise (· < ·)) :
    (place x ys).Pairwise (· < ·) := by
  induction ys with
  | nil => exact List.pairwise_singleton _ _
  | cons y ys ih =>
    obtain ⟨hy, hys⟩ := List.pairwise_cons.mp h
    unfold place
    split
    · rename_i hxy
      refine List.pairwise_cons.mpr ⟨fun z hz => ?_, h⟩
      rcases List.mem_cons.mp hz with rfl | hz
      · exact hxy
      · exact UInt64.lt_trans hxy (hy z hz)
    · split
      · exact h
      · rename_i hle hne
        have hyx : y < x := UInt64.lt_of_le_of_ne (UInt64.not_lt.mp hle) (Ne.symm hne)
        refine List.pairwise_cons.mpr ⟨fun z hz => ?_, ih hys⟩
        rcases mem_place.mp hz with rfl | hz
        · exact hyx
        · exact hy z hz

def insert (x : UInt64) (s : IndexSet) : IndexSet :=
  ⟨place x s.members, place_ascending s.ascending⟩

def ofList (xs : List UInt64) : IndexSet := xs.foldl (fun s x => s.insert x) empty

instance : Membership UInt64 IndexSet := ⟨fun s x => x ∈ s.members⟩

instance (x : UInt64) (s : IndexSet) : Decidable (x ∈ s) :=
  inferInstanceAs (Decidable (x ∈ s.members))

@[simp] theorem not_mem_empty (x : UInt64) : ¬ x ∈ empty := List.not_mem_nil

@[simp] theorem mem_insert {x y : UInt64} {s : IndexSet} : y ∈ s.insert x ↔ y = x ∨ y ∈ s :=
  mem_place

theorem mem_foldl_insert {xs : List UInt64} {s : IndexSet} {y : UInt64} :
    y ∈ xs.foldl (fun s x => s.insert x) s ↔ y ∈ xs ∨ y ∈ s := by
  induction xs generalizing s with
  | nil => simp
  | cons x xs ih =>
    rw [List.foldl_cons, ih, mem_insert, List.mem_cons]
    constructor
    · rintro (h | h | h)
      · exact Or.inl (Or.inr h)
      · exact Or.inl (Or.inl h)
      · exact Or.inr h
    · rintro ((h | h) | h)
      · exact Or.inr (Or.inl h)
      · exact Or.inl h
      · exact Or.inr (Or.inr h)

@[simp] theorem mem_ofList {xs : List UInt64} {y : UInt64} : y ∈ ofList xs ↔ y ∈ xs := by
  rw [ofList, mem_foldl_insert]
  simp

end IndexSet

end LossRelay
