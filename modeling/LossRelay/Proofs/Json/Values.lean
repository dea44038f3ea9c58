import LossRelay.Proofs.Json.Layout
import LossRelay.Proofs.Json.Literals

/-!
# Values of any depth

`Formed` is the grammar of values, and `skip` passes over every one of them (`skip_formed`).  The
skipping of a value keeps the open brackets on a stack; inside any brackets it passes over a whole
value in no more steps than the value has characters and then goes on as after a value of one step
(`Formed.skips`), which is what carries the induction through nested values.
-/

namespace LossRelay.Json

/-! ### The grammar -/

/-- A member of an object by its texts: the inside of its key, and its value. -/
structure RawMember where
  key : List Char
  value : List Char

/-- The text of a member: its key between quotes, a colon, and its value. -/
def RawMember.Text (m : RawMember) (text : List Char) : Prop :=
  Shaped m.key ∧ ∃ w w', Blanks w ∧ Blanks w' ∧
    text = '"' :: (m.key ++ '"' :: (w ++ ':' :: (w' ++ m.value)))

/-- **Well-formed values**, nested to any depth. -/
inductive Formed : List Char → Prop
  | null : Formed ['n', 'u', 'l', 'l']
  | yes : Formed ['t', 'r', 'u', 'e']
  | no : Formed ['f', 'a', 'l', 's', 'e']
  | number {text : List Char} (h : NumberText text) : Formed text
  | negative {text : List Char} (h : NumberText text) : Formed ('-' :: text)
  | string {text : List Char} (h : Shaped text) : Formed ('"' :: (text ++ ['"']))
  | list {items : List (List Char)} {text : List Char} (hitems : ∀ t ∈ items, Formed t)
    (h : Laid ']' Eq true items text) : Formed ('[' :: text)
  | object {members : List RawMember} {text : List Char}
    (hmembers : ∀ m ∈ members, Formed m.value)
    (h : Laid '\x7d' RawMember.Text true members text) : Formed ('\x7b' :: text)

theorem NumberText.head {text : List Char} (h : NumberText text) :
    ∃ c t, text = c :: t ∧ c.isDigit = true := by
  obtain ⟨whole, frac, e, hwhole, -, -, rfl⟩ := h
  rcases hwhole with rfl | ⟨⟨hne, hds⟩, -⟩
  · exact ⟨'0', _, rfl, rfl⟩
  · obtain ⟨c, cs, rfl⟩ := List.exists_cons_of_ne_nil hne
    exact ⟨c, _, rfl, hds c (List.mem_cons_self ..)⟩

/-- A value opens with a character that is neither blank nor a closing bracket. -/
theorem Formed.head {text : List Char} (h : Formed text) :
    ∃ c t, text = c :: t ∧ isBlank c = false ∧ c ≠ ']' := by
  cases h with
  | number h =>
    obtain ⟨c, t, rfl, hc⟩ := h.head
    refine ⟨c, t, rfl, isBlank_of_isDigit hc, ?_⟩
    rintro rfl
    cases hc
  | null => exact ⟨_, _, rfl, rfl, by decide⟩
  | yes => exact ⟨_, _, rfl, rfl, by decide⟩
  | no => exact ⟨_, _, rfl, rfl, by decide⟩
  | negative _ => exact ⟨_, _, rfl, rfl, by decide⟩
  | string _ => exact ⟨_, _, rfl, rfl, by decide⟩
  | list _ _ => exact ⟨_, _, rfl, rfl, by decide⟩
  | object _ _ => exact ⟨_, _, rfl, rfl, by decide⟩

theorem formed_digits (n : Nat) : Formed (Numeral.digits n) := by
  have hdigits : DigitsText (Numeral.digits n) :=
    ⟨Nat.toDigits_ne_nil, fun _ hd => Numeral.isDigit_of_mem_digits hd⟩
  have hwhole : WholeText (Numeral.digits n) := by
    by_cases hn : n = 0
    · subst hn
      exact Or.inl rfl
    · exact Or.inr ⟨hdigits, head_digits hn⟩
  exact .number ⟨_, [], [], hwhole, Or.inl rfl, Or.inl rfl, (List.append_nil _).symm⟩

theorem formed_plain {s : String} (h : s.toList.all isPlain = true) :
    Formed ('"' :: (s.toList ++ ['"'])) :=
  .string (Spelled.of_plain h).shaped

/-! ### Steps of the scanner -/

/-- A step of the scanner that comes to the end of a value. -/
def endStep (stack : List Bracket) (s : List Char) :
    Except Error (List Bracket × List Char × Bool) := do
  let (stack, r) ← afterValue stack s
  .ok (stack, r, stack.isEmpty)

/-- How the scanner goes on behind a value inside brackets. -/
def resume (fuel : Nat) (stack : List Bracket) (s : List Char) : Except Error (List Char) := do
  let (stack, r, done) ← endStep stack s
  if done then .ok r else skipAll fuel stack r

variable {fuel : Nat} {stack : List Bracket}

theorem skipAll_succ (fuel : Nat) (stack : List Bracket) (s : List Char) :
    skipAll (fuel + 1) stack s = (do
      let (stack, r, done) ← skipStep stack s
      if done then .ok r else skipAll fuel stack r) := rfl

theorem skipStep_list (stack : List Bracket) (r : List Char) :
    skipStep stack ('[' :: r) =
      match skipBlanks r with
      | [] => unfinished .list
      | ']' :: t => endStep stack t
      | _ :: _ => .ok (.list :: stack, r, false) := by
  unfold skipStep
  rw [skipBlanks_cons (by decide)]
  rfl

theorem skipStep_object (stack : List Bracket) (r : List Char) :
    skipStep stack ('\x7b' :: r) =
      match skipBlanks r with
      | [] => unfinished .object
      | '\x7d' :: t => endStep stack t
      | _ :: _ => (do
        let t ← skipKey r
        .ok (.object :: stack, t, false)) := by
  unfold skipStep
  rw [skipBlanks_cons (by decide)]
  rfl

theorem skipAll_blanks {w : List Char} (hw : Blanks w) (s : List Char) :
    skipAll fuel stack (w ++ s) = skipAll fuel stack s := by
  cases fuel with
  | zero => rfl
  | succ fuel =>
    rw [skipAll_succ, skipAll_succ]
    unfold skipStep
    rw [skipBlanks_blanks hw]

theorem skipAll_plain {c : Char} {t rest : List Char} (hc : isBlank c = false)
    (hlist : c ≠ '[') (hobject : c ≠ '\x7b') (hplain : skipPlain c (t ++ rest) = .ok rest) :
    skipAll (fuel + 1) stack (c :: (t ++ rest)) = resume fuel stack rest := by
  have hstep : skipStep stack (c :: (t ++ rest)) = endStep stack rest := by
    unfold skipStep
    rw [skipBlanks_cons hc]
    dsimp only
    split
    · contradiction
    · rename_i heq
      exact absurd (List.cons.inj heq).1 hlist
    · rename_i heq
      exact absurd (List.cons.inj heq).1 hobject
    · rename_i heq
      obtain ⟨rfl, rfl⟩ := List.cons.inj heq
      rw [hplain]
      rfl
  rw [skipAll_succ, hstep]
  rfl

theorem skipAll_emptyList {w : List Char} (hw : Blanks w) (rest : List Char) :
    skipAll (fuel + 1) stack ('[' :: (w ++ ']' :: rest)) = resume fuel stack rest := by
  rw [skipAll_succ, skipStep_list, skipBlanks_append hw (by decide)]
  rfl

theorem skipAll_openList {w : List Char} (hw : Blanks w) {c : Char} (hc : isBlank c = false)
    (hbracket : c ≠ ']') (s : List Char) :
    skipAll (fuel + 1) stack ('[' :: (w ++ c :: s)) =
      skipAll fuel (.list :: stack) (c :: s) := by
  rw [skipAll_succ, skipStep_list, skipBlanks_append hw hc]
  split
  · contradiction
  · rename_i heq
    exact absurd (List.cons.inj heq).1 hbracket
  · exact skipAll_blanks hw _

theorem resume_closeList {w : List Char} (hw : Blanks w) (rest : List Char) :
    resume fuel (.list :: stack) (w ++ ']' :: rest) = resume fuel stack rest := by
  unfold resume endStep
  rw [afterValue, skipBlanks_append hw (by decide)]
  rfl

theorem resume_comma {w : List Char} (hw : Blanks w) (s : List Char) :
    resume fuel (.list :: stack) (w ++ ',' :: s) = skipAll fuel (.list :: stack) s := by
  unfold resume endStep
  rw [afterValue, skipBlanks_append hw (by decide)]
  rfl

theorem RawMember.text_cons {m : RawMember} {text : List Char} (hm : m.Text text) :
    ∃ t, text = '"' :: t := by
  obtain ⟨-, _, _, -, -, rfl⟩ := hm
  exact ⟨_, rfl⟩

theorem RawMember.length_value_le {m : RawMember} {text : List Char} (hm : m.Text text) :
    m.value.length ≤ text.length := by
  obtain ⟨-, w, w', -, -, rfl⟩ := hm
  simp only [List.length_append, List.length_cons]
  omega

theorem skipKey_member {w : List Char} (hw : Blanks w) {m : RawMember} {text : List Char}
    (hm : m.Text text) (s : List Char) :
    ∃ w', Blanks w' ∧ skipKey (w ++ (text ++ s)) = .ok (w' ++ (m.value ++ s)) := by
  obtain ⟨hkey, v, w', hv, hw', rfl⟩ := hm
  refine ⟨w', hw', ?_⟩
  unfold skipKey
  simp only [List.cons_append, List.append_assoc]
  rw [skipBlanks_append hw (by decide)]
  change (skipString (m.key ++ '"' :: (v ++ ':' :: (w' ++ (m.value ++ s)))) >>= colon) = _
  rw [skipString_shaped hkey, ok_bind, colon_blanks hv]

theorem skipAll_emptyObject {w : List Char} (hw : Blanks w) (rest : List Char) :
    skipAll (fuel + 1) stack ('\x7b' :: (w ++ '\x7d' :: rest)) = resume fuel stack rest := by
  rw [skipAll_succ, skipStep_object, skipBlanks_append hw (by decide)]
  rfl

/-- The opening brace of an object is put on the stack, and its first key is passed over. -/
theorem skipAll_openObject {w : List Char} (hw : Blanks w) {m : RawMember} {text : List Char}
    (hm : m.Text text) (s : List Char) :
    skipAll (fuel + 1) stack ('\x7b' :: (w ++ (text ++ s))) =
      skipAll fuel (.object :: stack) (m.value ++ s) := by
  obtain ⟨w', hw', hkey⟩ := skipKey_member hw hm s
  obtain ⟨t, rfl⟩ := RawMember.text_cons hm
  rw [skipAll_succ, skipStep_object, hkey, List.cons_append, skipBlanks_append hw (by decide)]
  exact skipAll_blanks hw' _

theorem resume_closeObject {w : List Char} (hw : Blanks w) (rest : List Char) :
    resume fuel (.object :: stack) (w ++ '\x7d' :: rest) = resume fuel stack rest := by
  unfold resume endStep
  rw [afterValue, skipBlanks_append hw (by decide)]
  rfl

theorem resume_member {w w' : List Char} (hw : Blanks w) (hw' : Blanks w') {m : RawMember}
    {text : List Char} (hm : m.Text text) (s : List Char) :
    resume fuel (.object :: stack) (w ++ ',' :: (w' ++ (text ++ s))) =
      skipAll fuel (.object :: stack) (m.value ++ s) := by
  obtain ⟨v, hv, hkey⟩ := skipKey_member hw' hm s
  have hafter : afterValue (.object :: stack) (w ++ ',' :: (w' ++ (text ++ s))) =
      .ok (.object :: stack, v ++ (m.value ++ s)) := by
    rw [afterValue, skipBlanks_append hw (by decide)]
    change (skipKey (w' ++ (text ++ s)) >>= _) = _
    rw [hkey]
    rfl
  unfold resume endStep
  rw [hafter]
  exact skipAll_blanks hv _

/-! ### Whole values -/

/-- A value is passed over in so many steps, inside any brackets. -/
def Skips (text : List Char) (steps : Nat) : Prop :=
  ∀ fuel stack rest, Delimited rest →
    skipAll (fuel + steps) stack (text ++ rest) = resume fuel stack rest

theorem Laid.part_inv {β : Type} {close : Char} {P : β → List Char → Prop} {b : β} {bs : List β}
    {text : List Char} (h : Laid close P false (b :: bs) text) :
    ∃ v v' part more, Blanks v ∧ Blanks v' ∧ P b part ∧ Laid close P false bs more ∧
      text = v ++ ',' :: (v' ++ (part ++ more)) := by
  obtain _ | ⟨⟨v, v', hv, hv', rfl⟩, hb, hrest⟩ := h
  exact ⟨v, v', _, _, hv, hv', hb, hrest, by simp⟩

theorem resume_list {items : List (List Char)} {text : List Char}
    (h : Laid ']' Eq false items text)
    (hitems : ∀ t ∈ items, ∃ steps, steps ≤ t.length ∧ Skips t steps) :
    ∃ steps, steps ≤ text.length ∧ ∀ fuel stack rest,
      resume (fuel + steps) (.list :: stack) (text ++ rest) = resume fuel stack rest := by
  induction items generalizing text with
  | nil =>
    obtain ⟨hw⟩ := h
    refine ⟨0, Nat.zero_le _, fun fuel stack rest => ?_⟩
    rw [List.append_assoc]
    exact resume_closeList hw rest
  | cons t items ih =>
    obtain ⟨v, v', _, more, hv, hv', rfl, hmore, rfl⟩ := h.part_inv
    obtain ⟨steps, hle, hskips⟩ := hitems t (List.mem_cons_self ..)
    obtain ⟨steps', hle', hrest⟩ := ih hmore fun t ht => hitems t (List.mem_cons_of_mem _ ht)
    refine ⟨steps' + steps, ?_, fun fuel stack rest => ?_⟩
    · simp only [List.length_append, List.length_cons]
      omega
    · rw [List.append_assoc, List.cons_append, resume_comma hv, List.append_assoc,
        skipAll_blanks hv', List.append_assoc, ← Nat.add_assoc,
        hskips _ _ _ (hmore.delimited (Or.inl rfl) rest)]
      exact hrest fuel stack rest

theorem resume_object {members : List RawMember} {text : List Char}
    (h : Laid '\x7d' RawMember.Text false members text)
    (hmembers : ∀ m ∈ members, ∃ steps, steps ≤ m.value.length ∧ Skips m.value steps) :
    ∃ steps, steps ≤ text.length ∧ ∀ fuel stack rest,
      resume (fuel + steps) (.object :: stack) (text ++ rest) = resume fuel stack rest := by
  induction members generalizing text with
  | nil =>
    obtain ⟨hw⟩ := h
    refine ⟨0, Nat.zero_le _, fun fuel stack rest => ?_⟩
    rw [List.append_assoc]
    exact resume_closeObject hw rest
  | cons m members ih =>
    obtain ⟨v, v', part, more, hv, hv', hm, hmore, rfl⟩ := h.part_inv
    obtain ⟨steps, hle, hskips⟩ := hmembers m (List.mem_cons_self ..)
    obtain ⟨steps', hle', hrest⟩ := ih hmore fun m hm => hmembers m (List.mem_cons_of_mem _ hm)
    have hvalue := RawMember.length_value_le hm
    refine ⟨steps' + steps, ?_, fun fuel stack rest => ?_⟩
    · simp only [List.length_append, List.length_cons]
      omega
    · rw [List.append_assoc, List.cons_append, List.append_assoc, List.append_assoc,
        resume_member hv hv' hm, ← Nat.add_assoc,
        hskips _ _ _ (hmore.delimited (Or.inr rfl) rest)]
      exact hrest fuel stack rest

theorem skipPlain_digit {c : Char} (hc : c.isDigit = true) (r : List Char) :
    skipPlain c r = skipNumber (c :: r) := by
  have hne (d : Char) (hd : d.isDigit = false) : c ≠ d := by
    rintro rfl
    rw [hc] at hd
    cases hd
  unfold skipPlain
  rw [if_neg (hne 'n' rfl), if_neg (hne 't' rfl), if_neg (hne 'f' rfl), if_neg (hne '-' rfl),
    if_pos hc]

/-- **Every well-formed value is passed over**, inside any brackets, in no more steps than it has
characters. -/
theorem Formed.skips {text : List Char} (h : Formed text) :
    ∃ steps, steps ≤ text.length ∧ Skips text steps := by
  induction h with
  | null => exact ⟨1, by decide, fun _ _ _ _ => skipAll_plain rfl (by decide) (by decide) rfl⟩
  | yes => exact ⟨1, by decide, fun _ _ _ _ => skipAll_plain rfl (by decide) (by decide) rfl⟩
  | no => exact ⟨1, by decide, fun _ _ _ _ => skipAll_plain rfl (by decide) (by decide) rfl⟩
  | number h =>
    obtain ⟨c, t, rfl, hc⟩ := h.head
    refine ⟨1, Nat.succ_le_succ (Nat.zero_le _), fun fuel stack rest hrest => ?_⟩
    refine skipAll_plain (isBlank_of_isDigit hc) ?_ ?_ ?_
    · rintro rfl
      cases hc
    · rintro rfl
      cases hc
    · rw [skipPlain_digit hc]
      exact skipNumber_text h hrest
  | negative h =>
    refine ⟨1, Nat.succ_le_succ (Nat.zero_le _), fun fuel stack rest hrest => ?_⟩
    exact skipAll_plain rfl (by decide) (by decide) (skipNumber_text h hrest)
  | string h =>
    refine ⟨1, Nat.succ_le_succ (Nat.zero_le _), fun fuel stack rest hrest => ?_⟩
    refine skipAll_plain rfl (by decide) (by decide) ?_
    rw [List.append_assoc]
    exact skipString_shaped h rest
  | list hitems h ih =>
    obtain hw | ⟨hw, rfl, hmore⟩ := h
    · refine ⟨1, Nat.succ_le_succ (Nat.zero_le _), fun fuel stack rest _ => ?_⟩
      rw [List.cons_append, List.append_assoc]
      exact skipAll_emptyList hw rest
    · -- the bracket, the first item, and the rest of the list
      obtain ⟨steps, hle, hskips⟩ := ih _ (List.mem_cons_self ..)
      obtain ⟨steps', hle', hrest⟩ :=
        resume_list hmore fun t ht => ih t (List.mem_cons_of_mem _ ht)
      obtain ⟨c, t, rfl, hc, hbracket⟩ := (hitems _ (List.mem_cons_self ..)).head
      refine ⟨steps' + steps + 1, ?_, fun fuel stack rest _ => ?_⟩
      · simp only [List.length_append, List.length_cons] at hle ⊢
        omega
      · have hfirst := hskips (fuel + steps') (.list :: stack) _
          (hmore.delimited (Or.inl rfl) rest)
        simp only [List.cons_append, List.append_assoc] at hfirst ⊢
        rw [← Nat.add_assoc, skipAll_openList hw hc hbracket, ← Nat.add_assoc, hfirst]
        exact hrest fuel stack rest
  | object hmembers h ih =>
    obtain hw | ⟨hw, hm, hmore⟩ := h
    · refine ⟨1, Nat.succ_le_succ (Nat.zero_le _), fun fuel stack rest _ => ?_⟩
      rw [List.cons_append, List.append_assoc]
      exact skipAll_emptyObject hw rest
    · -- the brace with the first key, its value, and the rest of the object
      obtain ⟨steps, hle, hskips⟩ := ih _ (List.mem_cons_self ..)
      obtain ⟨steps', hle', hrest⟩ :=
        resume_object hmore fun m hm => ih m (List.mem_cons_of_mem _ hm)
      have hvalue := RawMember.length_value_le hm
      refine ⟨steps' + steps + 1, ?_, fun fuel stack rest _ => ?_⟩
      · simp only [List.length_append, List.length_cons]
        omega
      · rw [List.cons_append, List.append_assoc, List.append_assoc, ← Nat.add_assoc,
          skipAll_openObject hw hm, ← Nat.add_assoc,
          hskips _ _ _ (hmore.delimited (Or.inr rfl) rest)]
        exact hrest fuel stack rest

/-- **A value of any depth is passed over.** -/
theorem skip_formed {text : List Char} (h : Formed text) {w : List Char} (hw : Blanks w)
    {rest : List Char} (hrest : Delimited rest) : skip (w ++ (text ++ rest)) = .ok rest := by
  obtain ⟨steps, hle, hskips⟩ := h.skips
  have hfuel : (w ++ (text ++ rest)).length + 1 =
      ((w ++ (text ++ rest)).length + 1 - steps) + steps := by
    simp only [List.length_append]
    omega
  unfold skip
  rw [hfuel, skipAll_blanks hw, hskips _ _ _ hrest]
  rfl

end LossRelay.Json
