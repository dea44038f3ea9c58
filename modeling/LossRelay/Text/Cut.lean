/-!
# Cutting a text

`cut` gives the pieces of a text between the places where a mark stands; there is always one piece
more than there are marks.
-/

namespace LossRelay.Text

/-- The pieces of a text between marks. -/
def cut (mark : Char) : List Char → List (List Char)
  | [] => [[]]
  | c :: cs =>
    if c = mark then [] :: cut mark cs
    else
      match cut mark cs with
      | [] => [[c]]
      | p :: ps => (c :: p) :: ps

theorem cut_ne_nil (mark : Char) (cs : List Char) : cut mark cs ≠ [] := by
  cases cs with
  | nil => simp [cut]
  | cons c cs =>
    unfold cut
    split
    · simp
    · split <;> simp

/-- One piece more than marks. -/
theorem length_cut (mark : Char) (cs : List Char) :
    (cut mark cs).length = cs.count mark + 1 := by
  induction cs with
  | nil => simp [cut]
  | cons c cs ih =>
    unfold cut
    split
    · rename_i h
      subst h
      simp [ih]
    · rename_i h
      have hne : ¬ (c == mark) = true := by simpa using h
      rw [List.count_cons_of_ne (by simpa using h)]
      split
      · rename_i hcut
        exact absurd hcut (cut_ne_nil mark cs)
      · rename_i p ps hcut
        rw [hcut] at ih
        simpa using ih

end LossRelay.Text
