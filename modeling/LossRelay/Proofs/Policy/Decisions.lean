import LossRelay.Policy.Basic

/-!
# Decisions in a row

How the decisions of a policy on a history are put together from those on its parts.
-/

namespace LossRelay.LossPolicy

variable {π : Type} [LossPolicy π]

theorem decideAll_cons (p : π) (a : Arrival) (as : List Arrival) :
    decideAll p (a :: as) =
      (LossPolicy.decide p a :: (decideAll (LossPolicy.decide p a).next as).1,
        (decideAll (LossPolicy.decide p a).next as).2) := rfl

/-- Decisions on two histories in a row: the second starts where the first has led. -/
theorem decideAll_append (p : π) (as bs : List Arrival) :
    decideAll p (as ++ bs) =
      ((decideAll p as).1 ++ (decideAll (decideAll p as).2 bs).1,
        (decideAll (decideAll p as).2 bs).2) := by
  induction as generalizing p with
  | nil => rfl
  | cons a as ih => rw [List.cons_append, decideAll_cons, ih, decideAll_cons]; rfl

theorem decideAll_concat (p : π) (as : List Arrival) (a : Arrival) :
    decideAll p (as ++ [a]) =
      ((decideAll p as).1 ++ [LossPolicy.decide (decideAll p as).2 a],
        (LossPolicy.decide (decideAll p as).2 a).next) := decideAll_append p as [a]

theorem decideAll_of_fixed {p : π} (h : ∀ a, (LossPolicy.decide p a).next = p)
    (as : List Arrival) : decideAll p as = (as.map (LossPolicy.decide p), p) := by
  induction as with
  | nil => rfl
  | cons a as ih => rw [decideAll_cons, h, ih, List.map_cons]

theorem length_decideAll (p : π) (as : List Arrival) : (decideAll p as).1.length = as.length := by
  induction as generalizing p with
  | nil => rfl
  | cons a as ih => simp [decideAll_cons, ih]

end LossRelay.LossPolicy
