import LossRelay.Text.Blank
import LossRelay.Text.Cut
import Mathlib.Data.List.DropRight

/-!
# Parts of a text

What cutting and trimming do, said without them.  The pieces of a text are the texts without marks
that give it back with marks between them; what remains of a text between blanks is its part that
neither starts nor ends with a blank (`trim_eq_iff`).
-/

namespace LossRelay.Text

/-! ### Cutting -/

theorem cut_eq_splitOn (mark : Char) (cs : List Char) : cut mark cs = cs.splitOn mark := by
  induction cs with
  | nil => rfl
  | cons c cs ih =>
    rw [List.splitOn_cons_eq_if_modifyHead, ← ih, cut]
    by_cases hc : c = mark
    · simp [hc]
    · simp only [hc, if_false, beq_iff_eq]
      cases hcut : cut mark cs with
      | nil => exact absurd hcut (cut_ne_nil mark cs)
      | cons p ps => rfl

theorem cut_of_not_mem {mark : Char} {p : List Char} (h : mark ∉ p) : cut mark p = [p] := by
  rw [cut_eq_splitOn]
  exact List.splitOn_eq_singleton h

theorem cut_append_mark {mark : Char} {p : List Char} (h : mark ∉ p) (cs : List Char) :
    cut mark (p ++ mark :: cs) = p :: cut mark cs := by
  rw [cut_eq_splitOn, cut_eq_splitOn]
  exact List.splitOn_append_cons_self_of_not_mem h cs

/-! ### Trimming -/

def AllBlank (cs : List Char) : Prop := ∀ c ∈ cs, isBlank c = true

/-- A text that neither starts nor ends with a blank. -/
def Tight (cs : List Char) : Prop :=
  (∀ c ∈ cs.head?, isBlank c = false) ∧ ∀ c ∈ cs.getLast?, isBlank c = false

/-- A text is another one with blanks around it. -/
def Pads (inner cs : List Char) : Prop :=
  ∃ w w', AllBlank w ∧ AllBlank w' ∧ cs = w ++ (inner ++ w')

theorem Pads.refl (cs : List Char) : Pads cs cs := ⟨[], [], nofun, nofun, by simp⟩

theorem dropWhile_blanks {w t w' : List Char} (hw : AllBlank w) (hw' : AllBlank w')
    (ht : ∀ c ∈ t.head?, isBlank c = false) :
    (w ++ (t ++ w')).dropWhile isBlank = t ++ if t = [] then [] else w' := by
  rw [List.dropWhile_append_of_pos hw]
  cases t with
  | nil => simpa [AllBlank] using hw'
  | cons c t => simp [ht c rfl]

theorem pads_trim (cs : List Char) : Pads (trim cs) cs := by
  refine ⟨cs.takeWhile isBlank, (cs.dropWhile isBlank).rtakeWhile isBlank, ?_, ?_, ?_⟩
  · exact fun c hc => List.mem_takeWhile_imp hc
  · exact fun c hc => List.mem_rtakeWhile_imp hc
  · have hinner : trim cs = (cs.dropWhile isBlank).rdropWhile isBlank := rfl
    rw [hinner, List.rdropWhile_append_rtakeWhile, List.takeWhile_append_dropWhile]

theorem tight_trim (cs : List Char) : Tight (trim cs) := by
  have hinner : trim cs = (cs.dropWhile isBlank).rdropWhile isBlank := rfl
  rw [hinner]
  constructor
  · intro c hc
    -- the text keeps its first character when blanks at its end are cut off
    obtain ⟨ds, hds⟩ := List.rdropWhile_prefix isBlank (cs.dropWhile isBlank)
    obtain ⟨t, ht⟩ := List.head?_eq_some_iff.mp hc
    rw [ht] at hds
    exact head_dropWhile_isBlank hds.symm
  · intro c hc
    obtain ⟨hne, hlast⟩ := List.mem_getLast?_eq_getLast hc
    rw [hlast]
    have hnot := List.rdropWhile_last_not isBlank (cs.dropWhile isBlank) hne
    simpa using hnot

/-- **What remains of a text between blanks** is its part that neither starts nor ends with one. -/
theorem trim_eq_iff {cs t : List Char} : trim cs = t ↔ Pads t cs ∧ Tight t := by
  constructor
  · rintro rfl
    exact ⟨pads_trim cs, tight_trim cs⟩
  · rintro ⟨⟨w, w', hw, hw', rfl⟩, hhead, hlast⟩
    have hback : ∀ c ∈ t.reverse.head?, isBlank c = false := by
      rw [List.head?_reverse]
      exact hlast
    unfold trim
    rw [dropWhile_blanks hw hw' hhead]
    by_cases ht : t = []
    · simp [ht]
    · have hnone : AllBlank [] := nofun
      have hrev := dropWhile_blanks (w := w'.reverse) (t := t.reverse)
        (fun c hc => hw' c (List.mem_reverse.mp hc)) hnone hback
      rw [if_neg ht, List.reverse_append]
      simpa using congrArg List.reverse hrev

theorem trim_eq_nil_iff {cs : List Char} : trim cs = [] ↔ AllBlank cs := by
  constructor
  · intro h
    obtain ⟨w, w', hw, hw', rfl⟩ := h ▸ pads_trim cs
    intro c hc
    rcases List.mem_append.mp hc with hc | hc
    · exact hw c hc
    · exact hw' c hc
  · intro h
    exact trim_eq_iff.mpr ⟨⟨cs, [], h, nofun, by simp⟩, nofun, nofun⟩

end LossRelay.Text
