import LossRelay.Proofs.Json.Reading

/-!
# The layout of lists and objects

`Laid close P true bs text` says that a text is what stands in a list or an object after its opening
bracket: the texts of the parts `bs` in order, with commas and any blanks between them, and the
closing bracket.  `list_reads` and `Record.reads_object` say what the readers make of such a text:
a list gives its items, and an object gives the values that its record starts with, changed by one
member after the other.
-/

namespace LossRelay.Json

/-! ### Parts and separators -/

/-- What stands in front of a part: blanks, and a comma among them unless the part is the first. -/
def Separator : Bool → List Char → Prop
  | true, w => Blanks w
  | false, w => ∃ v v', Blanks v ∧ Blanks v' ∧ w = v ++ ',' :: v'

variable {α β : Type}

/-- Parts in order, each behind its separator, and the closing bracket; `P` relates a part to its
text. -/
inductive Laid (close : Char) (P : β → List Char → Prop) : Bool → List β → List Char → Prop
  | close {first : Bool} {w : List Char} (hw : Blanks w) : Laid close P first [] (w ++ [close])
  | part {first : Bool} {w text rest : List Char} {b : β} {bs : List β} (hw : Separator first w)
    (hb : P b text) (hrest : Laid close P false bs rest) :
    Laid close P first (b :: bs) (w ++ (text ++ rest))

def IsBracket (close : Char) : Prop := close = ']' ∨ close = '\x7d'

theorem Blanks.delimited {w : List Char} (hw : Blanks w) {c : Char} (hc : c = ',' ∨ IsBracket c)
    (s : List Char) : Delimited (w ++ c :: s) := by
  cases w with
  | nil =>
    rintro d ⟨⟩
    exact Or.inr hc
  | cons d w =>
    rintro d' ⟨⟩
    exact Or.inl (hw d (List.mem_cons_self ..))

theorem Laid.delimited {close : Char} {P : β → List Char → Prop} {bs : List β} {text : List Char}
    (h : Laid close P false bs text) (hclose : IsBracket close) (rest : List Char) :
    Delimited (text ++ rest) := by
  cases h with
  | close hw =>
    rw [List.append_assoc]
    exact hw.delimited (Or.inr hclose) rest
  | part hw hb hrest =>
    obtain ⟨v, v', hv, -, rfl⟩ := hw
    rw [List.append_assoc, List.append_assoc]
    exact hv.delimited (Or.inl rfl) _

theorem Laid.length_lt {close : Char} {P : β → List Char → Prop} {first : Bool} {bs : List β}
    {text : List Char} (h : Laid close P first bs text) (hP : ∀ b t, P b t → t ≠ []) :
    bs.length < text.length := by
  induction h with
  | close hw => simp
  | part hw hb hrest ih =>
    have hpos := List.length_pos_iff.mpr (hP _ _ hb)
    simp only [List.length_cons, List.length_append]
    omega

/-- So there are fewer parts than a reader has steps. -/
theorem Laid.length_lt_fuel {close : Char} {P : β → List Char → Prop} {first : Bool} {bs : List β}
    {text : List Char} (h : Laid close P first bs text) (hP : ∀ b t, P b t → t ≠ [])
    (rest : List Char) : bs.length < (text ++ rest).length + 1 := by
  have hlt := h.length_lt hP
  rw [List.length_append]
  omega

theorem Laid.map {γ : Type} {close : Char} {P : β → List Char → Prop}
    {Q : γ → List Char → Prop} {f : β → γ} (hPQ : ∀ b t, P b t → Q (f b) t) {first : Bool}
    {bs : List β} {text : List Char} (h : Laid close P first bs text) :
    Laid close Q first (bs.map f) text := by
  induction h with
  | close hw => exact .close hw
  | part hw hb _ ih => exact .part hw (hPQ _ _ hb) ih

theorem Laid.comma {close : Char} {P : β → List Char → Prop} {b : β} {bs : List β}
    {text : List Char} (h : Laid close P true (b :: bs) text) :
    Laid close P false (b :: bs) (',' :: text) := by
  obtain _ | ⟨hw, hb, hrest⟩ := h
  exact .part (w := ',' :: _) ⟨[], _, blanks_nil, hw, rfl⟩ hb hrest

/-! ### Lists -/

/-- The text of an item: it opens with a character that is neither blank nor the closing bracket,
and the reader of items reads it. -/
def ItemText (item : Reader α) (a : α) (text : List Char) : Prop :=
  (∃ c t, text = c :: t ∧ isBlank c = false ∧ c ≠ ']') ∧ Reads item text a

theorem nextItem_close (first : Bool) {w : List Char} (hw : Blanks w) (s : List Char) :
    nextItem first (w ++ ']' :: s) = .ok none := by
  unfold nextItem
  rw [skipBlanks_append hw (by decide)]
  rfl

theorem nextItem_part {first : Bool} {w : List Char} (hw : Separator first w) {c : Char}
    (hc : isBlank c = false) (hbracket : c ≠ ']') (s : List Char) :
    nextItem first (w ++ c :: s) = .ok (some (c :: s)) := by
  cases first with
  | true =>
    unfold nextItem
    rw [skipBlanks_append hw hc]
    split <;> simp_all
  | false =>
    obtain ⟨v, v', hv, hv', rfl⟩ := hw
    unfold nextItem
    rw [List.append_assoc, List.cons_append, skipBlanks_append hv (by decide)]
    change (if false = true then _ else if ',' = ',' then _ else _) = _
    rw [if_neg (by decide), if_pos rfl, skipBlanks_append hv' hc]
    split <;> simp_all

theorem closeList_close {w : List Char} (hw : Blanks w) (s : List Char) :
    closeList (w ++ ']' :: s) = .ok s := by
  unfold closeList
  rw [skipBlanks_append hw (by decide)]
  rfl

theorem items_laid {item : Reader α} {first : Bool} {as : List α} {text : List Char}
    (h : Laid ']' (ItemText item) first as text) {fuel : Nat} (hfuel : as.length < fuel)
    (rest : List Char) :
    ∃ w, Blanks w ∧ items item fuel first (text ++ rest) = .ok (as, w ++ ']' :: rest) := by
  induction h generalizing fuel with
  | close hw =>
    obtain ⟨fuel, rfl⟩ := Nat.exists_eq_add_one_of_ne_zero (Nat.ne_zero_of_lt hfuel)
    refine ⟨_, hw, ?_⟩
    unfold items
    rw [List.append_assoc, List.singleton_append, nextItem_close _ hw]
    rfl
  | part hw hb hrest ih =>
    obtain ⟨fuel, rfl⟩ := Nat.exists_eq_add_one_of_ne_zero (Nat.ne_zero_of_lt hfuel)
    obtain ⟨⟨c, t, rfl, hc, hbracket⟩, hitem⟩ := hb
    obtain ⟨w, hblanks, hmore⟩ := ih (Nat.lt_of_succ_lt_succ hfuel)
    have hread := hitem _ (hrest.delimited (Or.inl rfl) rest)
    refine ⟨w, hblanks, ?_⟩
    unfold items
    rw [List.append_assoc, List.append_assoc, List.cons_append, nextItem_part hw hc hbracket,
      ← List.cons_append]
    simp only [ok_bind, hread, hmore]

theorem list_lenient (item : Reader α) : Lenient (list item) := by
  intro w s hw
  unfold list
  rw [skipBlanks_blanks hw]

/-- **A list is read item by item.** -/
theorem list_reads {item : Reader α} {as : List α} {text : List Char}
    (h : Laid ']' (ItemText item) true as text) : Reads (list item) ('[' :: text) as := by
  intro rest _
  have hfuel := h.length_lt_fuel (fun _ _ ⟨⟨_, _, ht, _⟩, _⟩ => ht ▸ List.cons_ne_nil _ _) rest
  obtain ⟨w, hw, hitems⟩ := items_laid h hfuel rest
  unfold list
  rw [List.cons_append, skipBlanks_cons (by decide)]
  change (items item ((text ++ rest).length + 1) true (text ++ rest) >>= _) = _
  simp only [hitems, ok_bind, closeList_close hw]

/-! ### Objects -/

/-- A member of an object: its name, and how its value changes a record. -/
structure Member (α : Type) where
  name : String
  store : α → α

namespace Record

variable (rec : Record α)

/-- The field of a name. -/
def field? (name : String) : Option (Field α) := rec.fields.find? fun f => f.name == name

/-- The reader of the value of a name: that of its field, or one that passes over the value and
changes nothing. -/
def valueOf (name : String) (a : α) : Reader α :=
  match rec.field? name with
  | some f => f.read a
  | none => fun s => do
    let r ← skip s
    .ok (a, r)

/-- The names among those of the members that name a field. -/
def named (ms : List (Member α)) : List String :=
  (ms.map Member.name).filter fun name => (rec.field? name).isSome

theorem named_of_fields {ms : List (Member α)}
    (h : ∀ m ∈ ms, m.name ∈ rec.fields.map Field.name) : rec.named ms = ms.map Member.name := by
  refine List.filter_eq_self.mpr fun name hname => ?_
  obtain ⟨m, hm, rfl⟩ := List.mem_map.mp hname
  obtain ⟨f, hf, hfm⟩ := List.mem_map.mp (h m hm)
  exact List.find?_isSome.mpr ⟨f, hf, by rw [hfm]; exact beq_self_eq_true m.name⟩

theorem named_cons (m : Member α) (ms : List (Member α)) :
    rec.named (m :: ms) = rec.named [m] ++ rec.named ms := by
  unfold named
  rw [← List.filter_append, ← List.map_append]
  rfl

/-- The text of a member: the literal of its name, a colon, and a text that is read as its value. -/
inductive MemberText : Member α → List Char → Prop
  | mk {name : String} {key w value : List Char} {store : α → α} (hkey : Literal key name)
    (hw : Blanks w) (hvalue : ∀ a, Reads (rec.valueOf name a) value (store a)) :
    MemberText ⟨name, store⟩ ('"' :: (key ++ (w ++ ':' :: value)))

end Record

theorem nextKey_close (first : Bool) {w : List Char} (hw : Blanks w) (s : List Char) :
    nextKey first (w ++ '\x7d' :: s) = .ok none := by
  unfold nextKey
  rw [skipBlanks_append hw (by decide)]
  rfl

theorem nextKey_part {first : Bool} {w : List Char} (hw : Separator first w) (s : List Char) :
    nextKey first (w ++ '"' :: s) = .ok (some s) := by
  cases first with
  | true =>
    unfold nextKey
    rw [skipBlanks_append hw (by decide)]
    rfl
  | false =>
    obtain ⟨v, v', hv, hv', rfl⟩ := hw
    unfold nextKey
    rw [List.append_assoc, List.cons_append, skipBlanks_append hv (by decide)]
    change (if false = true then _ else if ',' = ',' then _ else _) = _
    rw [if_neg (by decide), if_pos rfl, skipBlanks_append hv' (by decide)]
    rfl

theorem colon_blanks {w : List Char} (hw : Blanks w) (s : List Char) :
    colon (w ++ ':' :: s) = .ok s := by
  unfold colon
  rw [skipBlanks_append hw (by decide)]
  rfl

theorem closeObject_close {w : List Char} (hw : Blanks w) (s : List Char) :
    closeObject (w ++ '\x7d' :: s) = .ok s := by
  unfold closeObject
  rw [skipBlanks_append hw (by decide)]
  rfl

/-- A choice is made by an object with its name as the only key and `null` as the value. -/
theorem Choice.reads_object {choice : Choice α} {key : List Char} {name : String} {a : α}
    (hkey : Literal key name) (hpick : choice.pick name = .ok a) {w v v' w' : List Char}
    (hw : Blanks w) (hv : Blanks v) (hv' : Blanks v') (hw' : Blanks w') :
    Reads choice.read
      ('\x7b' :: (w ++ '"' :: (key ++ (v ++ ':' :: (v' ++ 'n' :: 'u' :: 'l' :: 'l' ::
        (w' ++ ['\x7d'])))))) a := by
  intro rest _
  have hfirst : Separator true w := hw
  have hnull : nothing (v' ++ 'n' :: 'u' :: 'l' :: 'l' :: (w' ++ '\x7d' :: rest)) =
      .ok (w' ++ '\x7d' :: rest) := by
    unfold nothing
    rw [skipBlanks_append hv' (by decide)]
    rfl
  unfold Choice.read
  simp only [List.cons_append, List.append_assoc, List.nil_append]
  rw [skipBlanks_cons (by decide)]
  simp only [nextKey_part hfirst, ok_bind, hkey _, hpick, colon_blanks hv, hnull,
    skipBlanks_append hw' (c := '\x7d') (by decide)]

namespace Record

variable {rec : Record α}

/-- One member whose field, if it has one, has not been given. -/
theorem readMembers_part {fuel : Nat} {seen : List String} {first : Bool} {a : α} {m : Member α}
    {w text rest : List Char} (hw : Separator first w) (hm : rec.MemberText m text)
    (hrest : Delimited rest) (hfresh : ∀ name ∈ rec.named [m], name ∉ seen) :
    rec.readMembers (fuel + 1) seen first a (w ++ (text ++ rest)) =
      rec.readMembers fuel (rec.named [m] ++ seen) false (m.store a) rest := by
  obtain @⟨name, key, v, value, store, hkey, hv, hvalue⟩ := hm
  have hread := hvalue a rest hrest
  rw [readMembers]
  simp only [List.cons_append, List.append_assoc, nextKey_part hw]
  change (string (key ++ (v ++ ':' :: (value ++ rest))) >>= _) = _
  rw [hkey, ok_bind]
  unfold valueOf at hread
  cases hf : rec.field? name with
  | some f =>
    have hnamed : rec.named [⟨name, store⟩] = [name] := by simp [named, hf]
    have hseen : seen.contains name = false := by
      simpa using hfresh name (hnamed ▸ List.mem_singleton_self name)
    rw [hf] at hread
    unfold field? at hf
    dsimp only at hread ⊢
    rw [hf]
    dsimp only
    rw [hseen, hnamed, colon_blanks hv]
    change (f.read a (value ++ rest) >>= _) = _
    rw [hread]
    rfl
  | none =>
    have hnamed : rec.named [⟨name, store⟩] = [] := by simp [named, hf]
    rw [hf] at hread
    unfold field? at hf
    dsimp only at hread ⊢
    rw [hf]
    dsimp only
    rw [hnamed, colon_blanks hv]
    change (skip (value ++ rest) >>= _) = _
    cases hskip : skip (value ++ rest) with
    | error e =>
      rw [hskip] at hread
      cases hread
    | ok r =>
      rw [hskip] at hread
      obtain ⟨hstore, rfl⟩ := Prod.mk.inj (Except.ok.inj hread)
      rw [← hstore]
      rfl

theorem readMembers_laid {first : Bool} {ms : List (Member α)} {text : List Char}
    (h : Laid '\x7d' rec.MemberText first ms text) {fuel : Nat} (hfuel : ms.length < fuel)
    {seen : List String} (hnodup : (rec.named ms).Nodup)
    (hfresh : ∀ name ∈ rec.named ms, name ∉ seen) (a : α) (rest : List Char) :
    ∃ w seen', Blanks w ∧ (∀ name, name ∈ seen' ↔ name ∈ rec.named ms ∨ name ∈ seen) ∧
      rec.readMembers fuel seen first a (text ++ rest) =
        .ok ((ms.foldl (fun a m => m.store a) a, seen'), w ++ '\x7d' :: rest) := by
  induction h generalizing fuel seen a with
  | close hw =>
    obtain ⟨fuel, rfl⟩ := Nat.exists_eq_add_one_of_ne_zero (Nat.ne_zero_of_lt hfuel)
    refine ⟨_, seen, hw, by simp [named], ?_⟩
    rw [readMembers, List.append_assoc, List.singleton_append, nextKey_close _ hw]
    rfl
  | @part first w text more m ms hw hm hmore ih =>
    obtain ⟨fuel, rfl⟩ := Nat.exists_eq_add_one_of_ne_zero (Nat.ne_zero_of_lt hfuel)
    rw [named_cons] at hnodup hfresh
    obtain ⟨-, htail, hdisjoint⟩ := List.nodup_append.mp hnodup
    have hlater : ∀ name ∈ rec.named ms, name ∉ rec.named [m] ++ seen := by
      intro name hname hmem
      rcases List.mem_append.mp hmem with hmem | hmem
      · exact hdisjoint name hmem name hname rfl
      · exact hfresh name (List.mem_append_right _ hname) hmem
    obtain ⟨w', seen', hw', hseen', hread⟩ :=
      ih (Nat.lt_of_succ_lt_succ hfuel) htail hlater (m.store a)
    refine ⟨w', seen', hw', fun name => ?_, ?_⟩
    · rw [hseen', named_cons rec m ms, List.mem_append, List.mem_append]
      tauto
    · rw [List.append_assoc, List.append_assoc,
        readMembers_part hw hm (hmore.delimited (Or.inr rfl) rest)
          fun name hname => hfresh name (List.mem_append_left _ hname)]
      exact hread

theorem lenient (rec : Record α) : Lenient rec.read := by
  intro w s hw
  unfold read
  rw [skipBlanks_blanks hw]

/-- The members of an object are read, and then the fields are looked through for one that has not
been given. -/
theorem read_laid {ms : List (Member α)} {text : List Char}
    (h : Laid '\x7d' rec.MemberText true ms text) (hnodup : (rec.named ms).Nodup)
    (rest : List Char) :
    ∃ seen, (∀ name, name ∈ seen ↔ name ∈ rec.named ms) ∧
      rec.read ('\x7b' :: (text ++ rest)) =
        match rec.firstMissing seen with
        | some name =>
          if rec.complete then mismatch (.missingField name)
          else .ok (ms.foldl (fun a m => m.store a) rec.start, rest)
        | none => .ok (ms.foldl (fun a m => m.store a) rec.start, rest) := by
  have hfuel := h.length_lt_fuel (fun _ _ ht => by cases ht; exact List.cons_ne_nil _ _) rest
  obtain ⟨w, seen, hw, hseen, hmembers⟩ :=
    readMembers_laid h hfuel hnodup (fun _ _ => List.not_mem_nil) rec.start rest
  refine ⟨seen, fun name => by simpa using hseen name, ?_⟩
  unfold read
  rw [skipBlanks_cons (by decide)]
  change (rec.readMembers ((text ++ rest).length + 1) [] true rec.start (text ++ rest) >>= _) = _
  rw [hmembers, ok_bind]
  dsimp only
  rw [closeObject_close hw]
  rfl

/-- **An object is read member by member.**  It gives the values that its record starts with,
changed by each member in turn, if no field is given twice, and none is missing that has to be
given. -/
theorem reads_object {ms : List (Member α)} {text : List Char}
    (h : Laid '\x7d' rec.MemberText true ms text) (hnodup : (rec.named ms).Nodup)
    (hcomplete : rec.complete = true → ∀ f ∈ rec.fields, f.name ∈ rec.named ms) :
    Reads rec.read ('\x7b' :: text) (ms.foldl (fun a m => m.store a) rec.start) := by
  intro rest _
  obtain ⟨seen, hseen, hread⟩ := read_laid h hnodup rest
  rw [List.cons_append, hread]
  cases hmissing : rec.firstMissing seen with
  | none => rfl
  | some name =>
    -- a field that has not been given may only be missing from an incomplete record
    have hname : name ∈ rec.fields.map Field.name := List.mem_of_find?_eq_some hmissing
    have hnot : (!seen.contains name) = true :=
      List.find?_some (p := fun name => !seen.contains name) hmissing
    have hincomplete : ¬ rec.complete = true := by
      intro hcomp
      obtain ⟨f, hf, rfl⟩ := List.mem_map.mp hname
      have hmem := (hseen f.name).mpr (hcomplete hcomp f hf)
      simp [hmem] at hnot
    exact if_neg hincomplete

end Record

end LossRelay.Json
