import LossRelay.Proofs.Json.Entries
import LossRelay.Proofs.Json.Writing
import Mathlib.Data.List.Pairwise
import Mathlib.Data.List.Perm.Subperm

/-!
# Records that must be complete

A record whose fields all have to be given is read back from an object of its entries in any order
and from the list of their values, and an object that leaves entries out is refused for the first
field that is missing, in the order of the fields (`Record.ReadsBack`).  For that each field needs a
`Slot`, which says what the texts of its value are and what reading one of them changes
(`Record.Slots.readsBack`).
-/

namespace LossRelay.Json

variable {α β γ : Type}

theorem map_eq_of_forall₂ {f : α → γ} {g : β → γ} {as : List α} {bs : List β}
    (h : List.Forall₂ (fun a b => f a = g b) as bs) : as.map f = bs.map g := by
  induction h with
  | nil => rfl
  | cons heq _ ih => rw [List.map_cons, List.map_cons, heq, ih]

/-! ### Whole documents -/

/-- A document with nothing but blanks around its value. -/
def Alone (P : List Char → Prop) (text : String) : Prop :=
  ∃ w t w', Blanks w ∧ P t ∧ Blanks w' ∧ text.toList = w ++ (t ++ w')

theorem alone_of_text {P : List Char → Prop} {t : List Char} (h : P t) :
    Alone P (String.ofList t) := by
  refine ⟨[], t, [], blanks_nil, h, blanks_nil, ?_⟩
  rw [String.toList_ofList, List.append_nil, List.nil_append]

theorem Entry.exists_text (e : Entry) : ∃ text, e.Text text := by
  obtain ⟨key, hkey⟩ := exists_stringText e.name
  exact ⟨_, key, [], [], hkey, blanks_nil, blanks_nil, rfl⟩

theorem exists_object (es : List Entry) : ∃ text, Alone (ObjectText es) text := by
  choose text htext using Entry.exists_text
  have hparts : List.Forall₂ Entry.Text es (es.map text) :=
    List.forall₂_map_right_iff.mpr (List.forall₂_same.mpr fun e _ => htext e)
  obtain ⟨t, -, hlaid⟩ := Spacing.enclose_laid .compact 0 '\x7b' '\x7d' hparts
  exact ⟨_, alone_of_text ⟨t, rfl, hlaid⟩⟩

theorem exists_list (es : List Entry) : ∃ text, Alone (ListText es) text := by
  have hparts : List.Forall₂ (fun (e : Entry) t => t = e.value) es (es.map Entry.value) :=
    List.forall₂_map_right_iff.mpr (List.forall₂_same.mpr fun _ _ => rfl)
  obtain ⟨t, -, hlaid⟩ := Spacing.enclose_laid .compact 0 '[' ']' hparts
  exact ⟨_, alone_of_text ⟨t, rfl, hlaid⟩⟩

theorem document_of_error {read : Reader α} {text : String} {w s : List Char} {e : Error}
    (h : read s = .error e) (hread : Lenient read) (hw : Blanks w) (htext : text.toList = w ++ s) :
    document read text = .error e := by
  unfold document
  rw [htext, hread w s hw, h]
  rfl

/-! ### Values and their texts -/

/-- A reader of values with texts of their own: every value has a text, and is read from every text
that it has. -/
structure Written (read : Reader β) (Text : β → List Char → Prop) : Prop where
  lenient : Lenient read
  text : ∀ b, ∃ text, Text b text
  formed : ∀ {b text}, Text b text → Formed text
  reads : ∀ {b text}, Text b text → Reads read text b

/-- The text of a number of any width. -/
def DecimalText (value : β → Nat) (n : β) (text : List Char) : Prop :=
  text = Numeral.digits (value n)

theorem decimal_written {read : Reader β} {value : β → Nat} (hread : Lenient read)
    (hreads : ∀ n, Reads read (Numeral.digits (value n)) n) : Written read (DecimalText value) where
  lenient := hread
  text n := ⟨_, rfl⟩
  formed := by
    rintro n _ rfl
    exact formed_digits _
  reads := by
    rintro n _ rfl
    exact hreads n

theorem natural64_written : Written natural64 (DecimalText UInt64.toNat) :=
  decimal_written (natural_lenient _ _) natural64_reads

theorem size_written : Written size (DecimalText UInt64.toNat) :=
  decimal_written (natural_lenient _ _) fun n =>
    natural_reads "usize" (Nat.le_of_lt_succ n.toNat_lt)

theorem natural32_lenient : Lenient natural32 := by
  intro w s hw
  unfold natural32
  rw [natural_lenient _ _ w s hw]

theorem natural32_reads (n : UInt32) : Reads natural32 (Numeral.digits n.toNat) n := by
  have hbound : n.toUInt64.toNat ≤ 4294967295 := by
    rw [UInt32.toNat_toUInt64]
    exact Nat.le_of_lt_succ n.toNat_lt
  have hread := (natural_reads "u32" hbound).map UInt64.toUInt32
  rwa [UInt32.toNat_toUInt64, UInt32.toUInt32_toUInt64] at hread

theorem natural32_written : Written natural32 (DecimalText UInt32.toNat) :=
  decimal_written natural32_lenient natural32_reads

theorem text_lenient (kind : String) : Lenient (text kind) := by
  intro w s hw
  unfold text
  rw [skipBlanks_blanks hw]

theorem text_reads (kind : String) {s : String} {key : List Char} (h : StringText s key) :
    Reads (text kind) ('"' :: key) s := by
  intro rest _
  unfold text
  rw [List.cons_append, skipBlanks_cons (by decide)]
  exact literal_of_spelled h rest

/-! ### Slots -/

/-- What a field of a record means: its name, the texts of its value in a record, and a record with
the value of another one. -/
structure Slot (α : Type) where
  name : String
  Text : α → List Char → Prop
  /-- `put a b` is `b` with the value of `a`. -/
  put : α → α → α

/-- A slot fits a field: it has its name, every value has a text, and the field stores the value of
every text. -/
structure Slot.Fits (p : Slot α) (f : Field α) : Prop where
  name : p.name = f.name
  text : ∀ a, ∃ text, p.Text a text
  reads : ∀ {a text}, p.Text a text →
    Formed text ∧ ∀ b w, Blanks w → Reads (f.read b) (w ++ text) (p.put a b)

/-- A slot for the values of a reader, by what is read from a record and what changes it. -/
def Slot.of (name : String) (Text : β → List Char → Prop) (get : α → β) (set : α → β → α) :
    Slot α where
  name
  Text a := Text (get a)
  put a b := set b (get a)

theorem Written.fits {read : Reader β} {Text : β → List Char → Prop} (h : Written read Text)
    {name : String} (get : α → β) {set : α → β → α} {f : Field α} (hname : name = f.name)
    (hf : ∀ a s, f.read a s = do let (b, r) ← read s; .ok (set a b, r)) :
    (Slot.of name Text get set).Fits f where
  name := hname
  text a := h.text (get a)
  reads {a text} htext := by
    refine ⟨h.formed htext, fun b w hw => ?_⟩
    rw [funext (hf b)]
    exact ((h.reads htext).blanks h.lenient hw).map (set b)

/-- Two slots may be stored in either order. -/
def Slot.Commute (p q : Slot α) : Prop := ∀ a b, q.put a (p.put a b) = p.put a (q.put a b)

instance : Std.Symm (@Slot.Commute α) := ⟨fun _ _ h a b => (h a b).symm⟩

/-- An entry gives the value that a record has in a slot. -/
def Slot.Shown (a : α) (p : Slot α) (e : Entry) : Prop := e.name = p.name ∧ p.Text a e.value

/-- Entries give the values of a record slot by slot. -/
def Shows (slots : List (Slot α)) (a : α) (es : List Entry) : Prop :=
  List.Forall₂ (Slot.Shown a) slots es

theorem Shows.names {slots : List (Slot α)} {a : α} {es : List Entry} (h : Shows slots a es) :
    es.map Entry.name = slots.map Slot.name :=
  map_eq_of_forall₂ ((List.Forall₂.flip h).imp fun _ _ hp => hp.1)

/-- Some of the entries for slots are entries for some of the slots. -/
theorem Shows.exists_slots {slots : List (Slot α)} {a : α} {es es' : List Entry}
    (h : Shows slots a es) (hes : es' ⊆ es) : ∃ ps, ps ⊆ slots ∧ Shows ps a es' := by
  induction es' with
  | nil => exact ⟨[], List.nil_subset _, .nil⟩
  | cons e es' ih =>
    obtain ⟨he, hes⟩ := List.cons_subset.mp hes
    obtain ⟨p, hp, hshown⟩ := exists_of_forall₂ (List.Forall₂.flip h) he
    obtain ⟨ps, hps, hrest⟩ := ih hes
    exact ⟨p :: ps, List.cons_subset.mpr ⟨hp, hps⟩, .cons hshown hrest⟩

namespace Record

variable {rec : Record α}

/-- A record that must be complete, with a slot for each of its fields in order: the order in which
the slots are stored does not matter, and together they are the whole record. -/
structure Slots (rec : Record α) (slots : List (Slot α)) : Prop where
  fits : List.Forall₂ Slot.Fits slots rec.fields
  nodup : (rec.fields.map Field.name).Nodup
  complete : rec.complete = true
  commute : slots.Pairwise Slot.Commute
  whole : ∀ a, slots.foldl (fun b p => p.put a b) rec.start = a

/-- Every record is read back from its entries as an object in any order and from their values as a
list, and an object without some of the entries is refused for the first field without one. -/
structure ReadsBack (rec : Record α) (slots : List (Slot α)) : Prop where
  /-- Every record has entries, which are written in any order, in part or as a list. -/
  written : ∀ a, ∃ es, Shows slots a es ∧ (∃ text, Alone (ListText es) text) ∧
    ∀ es', es'.Subperm es → ∃ text, Alone (ObjectText es') text
  object : ∀ {a es es' text}, Shows slots a es → es'.Perm es → Alone (ObjectText es') text →
    document rec.read text = .ok a
  list : ∀ {a es text}, Shows slots a es → Alone (ListText es) text →
    document rec.read text = .ok a
  missing : ∀ {a es es' text}, Shows slots a es → es'.Subperm es → es'.length < es.length →
    Alone (ObjectText es') text →
    ∃ before name after, rec.fields.map Field.name = before ++ name :: after ∧
      (∀ n ∈ before, n ∈ es'.map Entry.name) ∧ name ∉ es'.map Entry.name ∧
      document rec.read text = .error (.mismatch (.missingField name))

/-! ### Missing fields -/

theorem exists_first_missing {names given : List String} (hnodup : names.Nodup)
    (hlt : given.length < names.length) :
    ∃ before name after, names = before ++ name :: after ∧ (∀ n ∈ before, n ∈ given) ∧
      name ∉ given := by
  cases hfound : names.find? fun name => !given.contains name with
  | none =>
    have hsub : names ⊆ given := fun name hname => by
      simpa using List.find?_eq_none.mp hfound name hname
    exact absurd (List.subperm_of_subset hnodup hsub).length_le (Nat.not_le_of_lt hlt)
  | some name =>
    obtain ⟨hname, before, after, heq, hbefore⟩ := List.find?_eq_some_iff_append.mp hfound
    refine ⟨before, name, after, heq, fun n hn => ?_, ?_⟩
    · simpa using hbefore n hn
    · simpa using hname

/-- **The first field without a member is reported**, in the order of the fields and not in that of
the members. -/
theorem read_missing {ms : List (Member α)} {text : List Char}
    (h : Laid '\x7d' rec.MemberText true ms text) (hnodup : (rec.named ms).Nodup)
    (hcomplete : rec.complete = true) {before after : List String} {name : String}
    (hfields : rec.fields.map Field.name = before ++ name :: after)
    (hbefore : ∀ n ∈ before, n ∈ rec.named ms) (hname : name ∉ rec.named ms) (rest : List Char) :
    rec.read ('\x7b' :: (text ++ rest)) = .error (.mismatch (.missingField name)) := by
  obtain ⟨seen, hseen, hread⟩ := read_laid h hnodup rest
  have hmissing : rec.firstMissing seen = some name := by
    refine List.find?_eq_some_iff_append.mpr ⟨?_, before, after, hfields, fun n hn => ?_⟩
    · simpa [hseen] using hname
    · simpa [hseen] using hbefore n hn
  rw [hread, hmissing]
  exact if_pos hcomplete

/-! ### Reading entries -/

namespace Slots

variable {slots : List (Slot α)} {a : α} {es es' : List Entry}

def member (a : α) (p : Slot α) : Member α := ⟨p.name, p.put a⟩

variable (hslots : rec.Slots slots)

include hslots

theorem names : slots.map Slot.name = rec.fields.map Field.name :=
  map_eq_of_forall₂ (hslots.fits.imp fun _ _ h => h.name)

theorem value {p : Slot α} (hp : p ∈ slots) {text : List Char} (h : p.Text a text) :
    rec.ValueText (member a p) text := by
  obtain ⟨f, hf, hfits⟩ := exists_of_forall₂ hslots.fits hp
  obtain ⟨hformed, hreads⟩ := hfits.reads h
  refine ⟨hformed, ?_⟩
  have hfield : rec.field? p.name = some f := hfits.name ▸ field?_of_mem hslots.nodup hf
  rw [show (member a p).name = p.name from rfl, valueOf_field hfield]
  exact hreads

theorem gives {ps : List (Slot α)} (hps : ps ⊆ slots) (h : Shows ps a es) :
    List.Forall₂ rec.Gives es (ps.map (member a)) := by
  induction h with
  | nil => exact .nil
  | @cons p e ps es hp _ ih =>
    have hvalue := hslots.value (hps (List.mem_cons_self ..)) hp.2
    exact .cons ⟨hp.1.symm, hvalue⟩ (ih fun q hq => hps (List.mem_cons_of_mem _ hq))

/-- In whatever order the slots are stored, the outcome is the whole record. -/
theorem foldl_members {ps : List (Slot α)} (hps : ps.Perm slots) (a : α) :
    (ps.map (member a)).foldl (fun b m => m.store b) rec.start = a := by
  have hcommute : ∀ p ∈ ps, ∀ q ∈ ps, ∀ b, q.put a (p.put a b) = p.put a (q.put a b) := by
    intro p hp q hq
    have hpq : p.Commute q := hslots.commute.forall_of_forall (fun _ _ _ _ => rfl)
      (hps.subset hp) (hps.subset hq)
    exact hpq a
  rw [List.foldl_map]
  exact (hps.foldl_eq' hcommute rec.start).trans (hslots.whole a)

theorem named_eq {ms : List (Member α)} (hms : List.Forall₂ rec.Gives es' ms)
    (h : Shows slots a es) (hes : es'.Subperm es) :
    rec.named ms = es'.map Entry.name ∧ (rec.named ms).Nodup := by
  have hfields : es.map Entry.name = rec.fields.map Field.name := h.names.trans hslots.names
  have heq : rec.named ms = es'.map Entry.name := by
    rw [← Gives.names hms]
    refine named_of_fields rec fun m hm => ?_
    have hname : m.name ∈ es'.map Entry.name := Gives.names hms ▸ List.mem_map_of_mem hm
    exact hfields ▸ List.map_subset Entry.name hes.subset hname
  obtain ⟨l, hperm, hsub⟩ := hes
  have hnodup : (l.map Entry.name).Nodup := (hfields ▸ hslots.nodup).sublist (hsub.map Entry.name)
  rw [heq]
  exact ⟨rfl, (hperm.map Entry.name).nodup hnodup⟩

/-- **A complete object is read back**, in whatever order its members stand. -/
theorem read_object (h : Shows slots a es) (hes : es'.Perm es) {text : String}
    (htext : Alone (ObjectText es') text) : document rec.read text = .ok a := by
  obtain ⟨w, _, w', hw, ⟨t, rfl, hlaid⟩, hw', htext⟩ := htext
  obtain ⟨ps, hshown, hps⟩ := List.perm_comp_forall₂ hes (List.Forall₂.flip h)
  have hms := hslots.gives hps.subset (List.Forall₂.flip hshown)
  obtain ⟨hnamed, hnodup⟩ := hslots.named_eq hms h hes.subperm
  have hmembers : Laid '\x7d' rec.MemberText true (ps.map (member a)) t :=
    hlaid.of_forall₂ hms fun _ _ _ hm ht => hm.memberText ht
  have hgiven : ∀ f ∈ rec.fields, f.name ∈ rec.named (ps.map (member a)) := by
    intro f hf
    rw [hnamed, (hes.map Entry.name).mem_iff, h.names, hslots.names]
    exact List.mem_map_of_mem hf
  have hread := Record.reads_object hmembers hnodup fun _ => hgiven
  rw [hslots.foldl_members hps] at hread
  exact document_of_blanks hread rec.lenient hw hw' htext

/-- **A complete list is read back.** -/
theorem read_list (h : Shows slots a es) {text : String} (htext : Alone (ListText es) text) :
    document rec.read text = .ok a := by
  obtain ⟨w, _, w', hw, ⟨t, rfl, hlaid⟩, hw', htext⟩ := htext
  have hms := hslots.gives (List.Subset.refl slots) h
  have hnames : (slots.map (member a)).map Member.name = rec.fields.map Field.name := by
    rw [← hslots.names, List.map_map]
    rfl
  have hlength : (slots.map (member a)).length = rec.fields.length := by
    simpa using congrArg List.length hnames
  have hitems : Laid ']' rec.ItemText true (slots.map (member a)) t :=
    hlaid.of_forall₂ hms fun _ _ _ hm ht => ht ▸ hm.2.itemText
  have hread := Record.reads_list hslots.nodup hitems (hnames ▸ List.prefix_refl _) fun _ => hlength
  rw [hslots.foldl_members (.refl slots)] at hread
  exact document_of_blanks hread rec.lenient hw hw' htext

/-- **An object that leaves entries out is refused** for the first of them in the order of the
fields. -/
theorem read_incomplete (h : Shows slots a es) (hes : es'.Subperm es)
    (hlt : es'.length < es.length) {text : String} (htext : Alone (ObjectText es') text) :
    ∃ before name after, rec.fields.map Field.name = before ++ name :: after ∧
      (∀ n ∈ before, n ∈ es'.map Entry.name) ∧ name ∉ es'.map Entry.name ∧
      document rec.read text = .error (.mismatch (.missingField name)) := by
  obtain ⟨w, _, w', hw, ⟨t, rfl, hlaid⟩, hw', htext⟩ := htext
  obtain ⟨ps, hps, hshown⟩ := h.exists_slots hes.subset
  have hms := hslots.gives hps hshown
  obtain ⟨hnamed, hnodup⟩ := hslots.named_eq hms h hes
  have hfew : (es'.map Entry.name).length < (rec.fields.map Field.name).length := by
    rw [← hslots.names, ← h.names, List.length_map, List.length_map]
    exact hlt
  obtain ⟨before, name, after, hfields, hbefore, hname⟩ :=
    exists_first_missing hslots.nodup hfew
  refine ⟨before, name, after, hfields, hbefore, hname, ?_⟩
  rw [← hnamed] at hbefore hname
  have hmembers : Laid '\x7d' rec.MemberText true (ps.map (member a)) t :=
    hlaid.of_forall₂ hms fun _ _ _ hm ht => hm.memberText ht
  have hread := read_missing hmembers hnodup hslots.complete hfields hbefore hname w'
  exact document_of_error hread rec.lenient hw htext

theorem exists_entries (a : α) : ∃ es, Shows slots a es := by
  have htext : ∀ p ∈ slots, ∃ text, p.Text a text := by
    intro p hp
    obtain ⟨f, -, hfits⟩ := exists_of_forall₂ hslots.fits hp
    exact hfits.text a
  choose! value hvalue using htext
  refine ⟨slots.map fun p => ⟨p.name, value p⟩, ?_⟩
  exact List.forall₂_map_right_iff.mpr (List.forall₂_same.mpr fun p hp => ⟨rfl, hvalue p hp⟩)

/-- **A record that must be complete is read back.** -/
theorem readsBack : rec.ReadsBack slots where
  written a := by
    obtain ⟨es, hes⟩ := hslots.exists_entries a
    exact ⟨es, hes, exists_list es, fun es' _ => exists_object es'⟩
  object h hes htext := hslots.read_object h hes htext
  list h htext := hslots.read_list h htext
  missing h hes hlt htext := hslots.read_incomplete h hes hlt htext

end Slots

end Record

end LossRelay.Json
