import LossRelay.Proofs.Json.Layout
import Mathlib.Data.List.Forall2

/-!
# Writing values

Lists and objects as texts, with any blanks at the places where a writer may put them: in front of
each part and of the closing bracket, depending on how deep they are nested, and behind colons.
`Spacing.compact` puts none; `Spacing.lines` puts each part on a line of its own.  What is written
is laid out as readers want it (`Spacing.enclose_laid`).
-/

namespace LossRelay.Json

/-- The blanks that a writer puts between tokens. -/
structure Spacing where
  /-- In front of a part or a closing bracket inside so many brackets. -/
  front : Nat → List Char
  /-- Behind a colon. -/
  colon : List Char
  blanks_front : ∀ depth, Blanks (front depth)
  blanks_colon : Blanks colon

namespace Spacing

/-- No blanks at all. -/
def compact : Spacing := ⟨fun _ => [], [], fun _ => blanks_nil, blanks_nil⟩

/-- A line for every part, two spaces further in for every bracket around it. -/
def lines : Spacing where
  front depth := '\n' :: List.replicate (2 * depth) ' '
  colon := [' ']
  blanks_front depth c hc := by
    rcases List.mem_cons.mp hc with rfl | hc
    · rfl
    · rw [List.eq_of_mem_replicate hc]
      rfl
  blanks_colon c hc := by
    rw [List.mem_singleton.mp hc]
    rfl

variable (sp : Spacing)

/-- Parts between brackets that stand inside so many others. -/
def enclose (depth : Nat) (opening closing : Char) : List (List Char) → List Char
  | [] => [opening, closing]
  | part :: parts =>
    opening :: ([','].intercalate ((part :: parts).map (sp.front (depth + 1) ++ ·)) ++
      (sp.front depth ++ [closing]))

/-- A string of plain characters. -/
def quoted (s : String) : List Char := '"' :: (s.toList ++ ['"'])

def list (depth : Nat) (items : List (List Char)) : List Char := sp.enclose depth '[' ']' items

def member (name : String) (value : List Char) : List Char :=
  quoted name ++ ':' :: (sp.colon ++ value)

def object (depth : Nat) (members : List (String × List Char)) : List Char :=
  sp.enclose depth '\x7b' '\x7d' (members.map fun m => sp.member m.1 m.2)

/-! ### The layout of what is written -/

variable {sp} {α β : Type}

/-- Parts with commas between them and the same blanks in front of each are laid out. -/
theorem laid_intercalate {P : β → List Char → Prop} {bs : List β} {parts : List (List Char)}
    {w w' : List Char} (hw : Blanks w) (hw' : Blanks w') (close : Char)
    (h : List.Forall₂ P bs parts) (hne : parts ≠ []) :
    Laid close P true bs ([','].intercalate (parts.map (w ++ ·)) ++ (w' ++ [close])) := by
  induction h with
  | nil => exact absurd rfl hne
  | @cons b part bs parts hb hrest ih =>
    cases hrest with
    | nil =>
      rw [List.map_singleton, List.intercalate_singleton, List.append_assoc]
      exact .part hw hb (.close hw')
    | cons hb' hrest =>
      have hmore := ih (List.cons_ne_nil _ _)
      rw [List.map_cons, List.map_cons, List.intercalate_cons_cons, List.append_assoc,
        List.append_assoc, List.append_assoc]
      exact .part hw hb hmore.comma

theorem enclose_laid (sp : Spacing) {P : β → List Char → Prop} {bs : List β}
    {parts : List (List Char)} (depth : Nat) (opening closing : Char)
    (h : List.Forall₂ P bs parts) :
    ∃ text, sp.enclose depth opening closing parts = opening :: text ∧
      Laid closing P true bs text := by
  cases h with
  | nil => exact ⟨[closing], rfl, .close blanks_nil⟩
  | cons hb hrest =>
    exact ⟨_, rfl, laid_intercalate (sp.blanks_front _) (sp.blanks_front _) closing
      (.cons hb hrest) (List.cons_ne_nil _ _)⟩

/-- **A list is read back** from its written items. -/
theorem list_read {item : Reader α} {as : List α} {items : List (List Char)} (depth : Nat)
    (h : List.Forall₂ (ItemText item) as items) :
    Reads (Json.list item) (sp.list depth items) as := by
  obtain ⟨text, htext, hlaid⟩ := enclose_laid sp depth '[' ']' h
  unfold list
  rw [htext]
  exact list_reads hlaid

theorem member_text {rec : Record α} {name : String} {f : Field α} {value : List Char}
    {store : α → α} (hname : name.toList.all isPlain = true)
    (hfield : rec.field? name = some f)
    (hvalue : ∀ a, Reads (f.read a) (sp.colon ++ value) (store a)) :
    rec.MemberText ⟨name, store⟩ (sp.member name value) := by
  have hread : ∀ a, Reads (rec.valueOf name a) (sp.colon ++ value) (store a) := by
    unfold Record.valueOf
    rw [hfield]
    exact hvalue
  have htext := Record.MemberText.mk (literal_plain hname) blanks_nil hread
  simpa [member, quoted] using htext

/-- **An object is read back** from its written members, if they are the fields of the record in
order: each of them changes the values that the record starts with. -/
theorem object_read (rec : Record α) {members : List (String × List Char)} (depth : Nat)
    (ms : List (Member α))
    (h : List.Forall₂ (fun m p => rec.MemberText m (sp.member p.1 p.2)) ms members)
    (hnames : ms.map Member.name = rec.fields.map Field.name)
    (hnodup : (rec.fields.map Field.name).Nodup) :
    Reads rec.read (sp.object depth members) (ms.foldl (fun a m => m.store a) rec.start) := by
  have hnamed : rec.named ms = rec.fields.map Field.name := by
    rw [← hnames]
    exact Record.named_of_fields rec fun m hm => hnames ▸ List.mem_map_of_mem hm
  obtain ⟨text, htext, hlaid⟩ :=
    enclose_laid sp depth '\x7b' '\x7d' (List.forall₂_map_right_iff.mpr h)
  unfold object
  rw [htext]
  exact Record.reads_object hlaid (hnamed ▸ hnodup) fun _ f hf =>
    hnamed ▸ List.mem_map_of_mem hf

end Spacing

end LossRelay.Json
