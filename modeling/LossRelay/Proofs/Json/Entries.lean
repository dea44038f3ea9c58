import LossRelay.Proofs.Json.Places

/-!
# Records by their entries

The entries of a document for a record are names with the texts of their values.  They are written
as an object, or without their names as a list, and a record that accepts the one or the other
`Holds` the entries (`Record.Plain.holds_object`, `Record.Plain.holds_list`).  What a record holds
is read back from an object and from a list of the same entries (`Record.Holds.reads_object`,
`Record.Holds.reads_list`), also when the text of a value is replaced by another that is read alike
(`Record.Holds.replace`).
-/

namespace LossRelay.Json

variable {α β : Type}

theorem forall₂_comp {γ : Type} {R : α → β → Prop} {S : β → γ → Prop} {as : List α} {bs : List β}
    {cs : List γ} (h : List.Forall₂ R as bs) (h' : List.Forall₂ S bs cs) :
    List.Forall₂ (fun a c => ∃ b, R a b ∧ S b c) as cs := by
  induction h generalizing cs with
  | nil =>
    cases h'
    exact .nil
  | cons hR _ ih =>
    obtain _ | ⟨hS, h'⟩ := h'
    exact .cons ⟨_, hR, hS⟩ (ih h')

theorem exists_of_forall₂ {R : α → β → Prop} {as : List α} {bs : List β}
    (h : List.Forall₂ R as bs) {a : α} (ha : a ∈ as) : ∃ b ∈ bs, R a b := by
  induction h with
  | nil => cases ha
  | cons hR _ ih =>
    rcases List.mem_cons.mp ha with rfl | ha
    · exact ⟨_, List.mem_cons_self .., hR⟩
    · obtain ⟨b, hb, hR⟩ := ih ha
      exact ⟨b, List.mem_cons_of_mem _ hb, hR⟩

/-! ### What the parts of an accepted value store -/

theorem Reads.unique {read : Reader α} {text : List Char} {a b : α} (ha : Reads read text a)
    (hb : Reads read text b) : a = b := by
  have hboth := (ha [] nofun).symm.trans (hb [] nofun)
  exact (Prod.mk.inj (Except.ok.inj hboth)).1

namespace Record

variable {rec : Record α}

theorem Stands.memberText {raw : RawMember} {m : Member α} {text : List Char}
    (h : rec.Stands raw m) (htext : raw.Text text) : rec.MemberText m text := by
  obtain ⟨hkey, -, hvalue⟩ := h
  obtain ⟨-, w, w', hw, hw', rfl⟩ := htext
  have hmember :
      rec.MemberText m ('"' :: ((raw.key ++ ['"']) ++ (w ++ ':' :: (w' ++ raw.value)))) :=
    .mk (literal_of_spelled ⟨_, hkey, rfl⟩) hw fun a => hvalue a w' hw'
  rwa [List.append_assoc] at hmember

theorem ValueText.itemText {m : Member α} {text : List Char} (h : rec.ValueText m text) :
    rec.ItemText m text :=
  ⟨h.1.head, fun a => h.2 a [] blanks_nil⟩

namespace Plain

variable (hrec : rec.Plain)

include hrec

theorem exists_of_list {ts : List (List Char)} {text rest r : List Char} {a : α}
    (h : Laid ']' Eq true ts text) (hts : ∀ t ∈ ts, Formed t)
    (hread : rec.read ('[' :: (text ++ rest)) = .ok (a, r)) :
    ∃ ms, ms.map Member.name <+: rec.fields.map Field.name ∧
      List.Forall₂ (fun t m => rec.ValueText m t) ts ms := by
  unfold read at hread
  rw [skipBlanks_cons (by decide)] at hread
  obtain ⟨⟨b, s⟩, hitems, hread⟩ := bind_eq_ok.mp hread
  obtain ⟨r', hclose, -⟩ := bind_eq_ok.mp hread
  exact exists_of_readItems hrec h hts (fun f hf => field?_of_mem hrec.nodup hf) 0 rfl hitems hclose

theorem exists_of_object {raws : List RawMember} {text rest r : List Char} {a : α}
    (h : Laid '\x7d' RawMember.Text true raws text) (hraws : ∀ raw ∈ raws, Formed raw.value)
    (hread : rec.read ('\x7b' :: (text ++ rest)) = .ok (a, r)) :
    ∃ ms, List.Forall₂ rec.Stands raws ms ∧ (rec.named ms).Nodup := by
  unfold read at hread
  rw [skipBlanks_cons (by decide)] at hread
  obtain ⟨outcome, hmembers, -⟩ := bind_eq_ok.mp hread
  obtain ⟨ms, hms, hnodup, -⟩ := exists_of_readMembers hrec h hraws hmembers
  exact ⟨ms, hms, hnodup⟩

theorem reads_values {ts : List (List Char)} {ms : List (Member α)} {text : List Char}
    (h : Laid ']' Eq true ts text) (hms : List.Forall₂ (fun t m => rec.ValueText m t) ts ms)
    (hnames : ms.map Member.name <+: rec.fields.map Field.name) :
    Reads rec.read ('[' :: text) (ms.foldl (fun a m => m.store a) rec.start) := by
  have hitems : Laid ']' rec.ItemText true ms text :=
    h.of_forall₂ hms fun t m _ hm ht => ht ▸ hm.itemText
  exact reads_list hrec.nodup hitems hnames (by rw [hrec.incomplete]; nofun)

theorem reads_members {raws : List RawMember} {ms : List (Member α)} {text : List Char}
    (h : Laid '\x7d' RawMember.Text true raws text) (hms : List.Forall₂ rec.Stands raws ms)
    (hnodup : (rec.named ms).Nodup) :
    Reads rec.read ('\x7b' :: text) (ms.foldl (fun a m => m.store a) rec.start) := by
  have hmembers : Laid '\x7d' rec.MemberText true ms text :=
    h.of_forall₂ hms fun raw m _ hm ht => hm.memberText ht
  exact reads_object hmembers hnodup (by rw [hrec.incomplete]; nofun)

/-- **A record is read exactly.** -/
theorem exact : Exact rec.read := by
  intro text rest r a htext hrest hread
  obtain ⟨c, t, rfl, hc, -⟩ := htext.head
  by_cases hlist : c = '['
  · subst hlist
    obtain ⟨ts, hts, hlaid⟩ := htext.list_inv
    obtain ⟨ms, hnames, hms⟩ := hrec.exists_of_list hlaid hts hread
    exact exact_of_reads hrest hread (hrec.reads_values hlaid hms hnames)
  by_cases hobject : c = '\x7b'
  · subst hobject
    obtain ⟨raws, hraws, hlaid⟩ := htext.object_inv
    obtain ⟨ms, hms, hnodup⟩ := hrec.exists_of_object hlaid hraws hread
    exact exact_of_reads hrest hread (hrec.reads_members hlaid hms hnodup)
  · -- no other value is a record
    unfold read at hread
    rw [List.cons_append, skipBlanks_cons hc] at hread
    split at hread <;> simp_all

end Plain

end Record

/-! ### Entries -/

structure Entry where
  name : String
  value : List Char

/-- The text of an entry as a member: a literal of its name, a colon and its value. -/
def Entry.Text (e : Entry) (text : List Char) : Prop :=
  ∃ key w w', StringText e.name key ∧ Blanks w ∧ Blanks w' ∧
    text = '"' :: (key ++ (w ++ ':' :: (w' ++ e.value)))

/-- Entries as an object, with any blanks. -/
def ObjectText (es : List Entry) (text : List Char) : Prop :=
  ∃ t, text = '\x7b' :: t ∧ Laid '\x7d' Entry.Text true es t

/-- The values of entries as a list, with any blanks. -/
def ListText (es : List Entry) (text : List Char) : Prop :=
  ∃ t, text = '[' :: t ∧ Laid ']' (fun e t => t = e.value) true es t

/-- The member of an entry by its texts. -/
def IsRaw (e : Entry) (raw : RawMember) : Prop :=
  Spelled e.name.toList raw.key ∧ raw.value = e.value

theorem exists_raw {e : Entry} {text : List Char} (h : e.Text text) :
    ∃ raw, IsRaw e raw ∧ raw.Text text := by
  obtain ⟨key, w, w', ⟨body, hbody, rfl⟩, hw, hw', rfl⟩ := h
  refine ⟨⟨body, e.value⟩, ⟨hbody, rfl⟩, hbody.shaped, w, w', hw, hw', ?_⟩
  rw [List.append_assoc]
  rfl

theorem ObjectText.exists_raws {es : List Entry} {text : List Char} (h : ObjectText es text)
    (hes : ∀ e ∈ es, Formed e.value) :
    ∃ t raws, text = '\x7b' :: t ∧ List.Forall₂ IsRaw es raws ∧
      (∀ raw ∈ raws, Formed raw.value) ∧ Laid '\x7d' RawMember.Text true raws t := by
  obtain ⟨t, rfl, hlaid⟩ := h
  obtain ⟨raws, hraws, hlaid⟩ := hlaid.exists_forall₂ fun _ _ => exists_raw
  refine ⟨t, raws, rfl, hraws, fun raw hraw => ?_, hlaid⟩
  obtain ⟨e, he, hvalue⟩ := exists_of_forall₂ (List.Forall₂.flip hraws) hraw
  exact hvalue.2 ▸ hes e he

theorem ObjectText.formed {es : List Entry} {text : List Char} (h : ObjectText es text)
    (hes : ∀ e ∈ es, Formed e.value) : Formed text := by
  obtain ⟨t, raws, rfl, -, hformed, hlaid⟩ := h.exists_raws hes
  exact .object hformed hlaid

theorem ListText.exists_values {es : List Entry} {text : List Char} (h : ListText es text)
    (hes : ∀ e ∈ es, Formed e.value) :
    ∃ t, text = '[' :: t ∧ (∀ v ∈ es.map Entry.value, Formed v) ∧
      Laid ']' Eq true (es.map Entry.value) t := by
  obtain ⟨t, rfl, hlaid⟩ := h
  refine ⟨t, rfl, fun v hv => ?_, hlaid.map fun _ _ ht => ht.symm⟩
  obtain ⟨e, he, rfl⟩ := List.mem_map.mp hv
  exact hes e he

theorem ListText.formed {es : List Entry} {text : List Char} (h : ListText es text)
    (hes : ∀ e ∈ es, Formed e.value) : Formed text := by
  obtain ⟨t, rfl, hformed, hlaid⟩ := h.exists_values hes
  exact .list hformed hlaid

namespace Record

variable {rec : Record α}

/-- An entry gives a member. -/
def Gives (rec : Record α) (e : Entry) (m : Member α) : Prop :=
  m.name = e.name ∧ rec.ValueText m e.value

/-- The values of a record are those that it starts with, changed by each entry in turn; no field
is named twice. -/
def Holds (rec : Record α) (es : List Entry) (a : α) : Prop :=
  ∃ ms, List.Forall₂ rec.Gives es ms ∧ (rec.named ms).Nodup ∧
    a = ms.foldl (fun a m => m.store a) rec.start

theorem Gives.names {es : List Entry} {ms : List (Member α)} (h : List.Forall₂ rec.Gives es ms) :
    ms.map Member.name = es.map Entry.name := by
  induction h with
  | nil => rfl
  | cons hm _ ih => rw [List.map_cons, List.map_cons, hm.1, ih]

theorem Gives.memberText {e : Entry} {m : Member α} {text : List Char} (h : rec.Gives e m)
    (htext : e.Text text) : rec.MemberText m text := by
  obtain ⟨hname, -, hvalue⟩ := h
  obtain ⟨key, w, w', hkey, hw, hw', rfl⟩ := htext
  exact .mk (literal_of_spelled (hname ▸ hkey)) hw fun a => hvalue a w' hw'

theorem Gives.stored {e : Entry} {m : Member α} (h : rec.Gives e m) {read : Reader β}
    {put : β → α → α} (hputs : rec.Puts e.name read put) :
    ∃ b, Reads read e.value b ∧ ∀ a, m.store a = put b a := by
  obtain ⟨f, hfield, hf⟩ := hputs
  obtain ⟨hname, hformed, hvalue⟩ := h
  rw [hname, valueOf_field hfield] at hvalue
  have hend : Delimited [] := nofun
  obtain ⟨-, b, hb, -⟩ :=
    hf.of_read hformed blanks_nil hend (hvalue rec.start [] blanks_nil [] hend)
  exact ⟨b, hb, fun a => (hvalue a [] blanks_nil).unique (hf.reads hb blanks_nil a)⟩

theorem Gives.store_of_put {e : Entry} {m : Member α} (h : rec.Gives e m) {read : Reader β}
    {put : β → α → α} (hputs : rec.Puts e.name read put) {P : α → Prop} {a : α}
    (hput : ∀ b, P (put b a)) : P (m.store a) := by
  obtain ⟨b, -, hstore⟩ := h.stored hputs
  rw [hstore]
  exact hput b

theorem Gives.replace {name : String} {v v' : List Char} {m : Member α}
    (h : rec.Gives ⟨name, v⟩ m) {read : Reader β} {put : β → α → α}
    (hputs : rec.Puts name read put) (hformed : Formed v')
    (hv : ∀ b, Reads read v b → Reads read v' b) : rec.Gives ⟨name, v'⟩ m := by
  obtain ⟨b, hb, hstore⟩ := h.stored hputs
  obtain ⟨f, hfield, hf⟩ := hputs
  refine ⟨h.1, hformed, fun a w hw => ?_⟩
  rw [h.1, valueOf_field hfield, hstore]
  exact hf.reads (hv b hb) hw a

/-- What the fields of other names leave as it is, an entry of another name leaves as it is. -/
theorem Gives.kept {e : Entry} {m : Member α} (h : rec.Gives e m) {place : α → β} {key : String}
    (hkey : e.name ≠ key)
    (hputs : ∀ name ∈ rec.fields.map Field.name, name ≠ key →
      ∃ (γ : Type) (read : Reader γ) (put : γ → α → α), rec.Puts name read put ∧
        ∀ c a, place (put c a) = place a) (a : α) : place (m.store a) = place a := by
  cases hfield : rec.field? e.name with
  | some f =>
    obtain ⟨hmem, hname⟩ := field?_mem hfield
    obtain ⟨_, read, put, hput, hkept⟩ :=
      hputs e.name (hname ▸ List.mem_map_of_mem hmem) hkey
    obtain ⟨c, -, hstore⟩ := h.stored hput
    rw [hstore, hkept]
  | none =>
    have hstore : m.store a = a :=
      (h.2.2 a [] blanks_nil).unique (h.1 ▸ (valueText_other hfield h.2.1).2 a [] blanks_nil)
    rw [hstore]

theorem Gives.of_raw {e : Entry} {raw : RawMember} {m : Member α} (h : IsRaw e raw)
    (hm : rec.Stands raw m) : rec.Gives e m := by
  refine ⟨StringText.unique ⟨raw.key, hm.1, rfl⟩ ⟨raw.key, h.1, rfl⟩, ?_⟩
  rw [← h.2]
  exact hm.2

namespace Plain

variable (hrec : rec.Plain)

include hrec

/-- **An accepted object holds its entries.** -/
theorem holds_object {es : List Entry} {text : List Char} {a : α} (htext : ObjectText es text)
    (hes : ∀ e ∈ es, Formed e.value) (hread : Reads rec.read text a) : rec.Holds es a := by
  obtain ⟨t, raws, rfl, hraws, hformed, hlaid⟩ := htext.exists_raws hes
  obtain ⟨ms, hms, hnodup⟩ := hrec.exists_of_object hlaid hformed (hread [] nofun)
  have hgives : List.Forall₂ rec.Gives es ms :=
    (forall₂_comp hraws hms).imp fun _ _ ⟨_, hraw, hm⟩ => Gives.of_raw hraw hm
  exact ⟨ms, hgives, hnodup, hread.unique (hrec.reads_members hlaid hms hnodup)⟩

/-- **An accepted list holds its entries**, if they have the names of the fields in order. -/
theorem holds_list {es : List Entry} {text : List Char} {a : α} (htext : ListText es text)
    (hes : ∀ e ∈ es, Formed e.value)
    (hnames : es.map Entry.name <+: rec.fields.map Field.name)
    (hread : Reads rec.read text a) : rec.Holds es a := by
  obtain ⟨t, rfl, hformed, hvalues⟩ := htext.exists_values hes
  obtain ⟨ms, hprefix, hms⟩ := hrec.exists_of_list hvalues hformed (hread [] nofun)
  -- both lists of names begin like the names of the fields
  have hsame : es.map Entry.name = ms.map Member.name := by
    have hlength : (es.map Entry.name).length = (ms.map Member.name).length := by
      simpa using hms.length_eq
    have hle := List.prefix_of_prefix_length_le hnames hprefix (Nat.le_of_eq hlength)
    exact hle.eq_of_length hlength
  have heq : List.Forall₂ (fun (e : Entry) (m : Member α) => e.name = m.name) es ms := by
    rw [← List.forall₂_map_left_iff (f := Entry.name) (R := fun n m => n = Member.name m),
      ← List.forall₂_map_right_iff (f := Member.name) (R := Eq), List.forall₂_eq_eq_eq]
    exact hsame
  have hgives : List.Forall₂ rec.Gives es ms :=
    List.Forall₂.mp (fun _ _ h h' => ⟨h.symm, h'⟩) heq (List.forall₂_map_left_iff.mp hms)
  exact ⟨ms, hgives, (hrec.nodup.sublist hprefix.sublist).filter _,
    hread.unique (hrec.reads_values hvalues hms hprefix)⟩

end Plain

namespace Holds

theorem reads_object (hrec : rec.Plain) {es : List Entry} {text : List Char} {a : α}
    (h : rec.Holds es a) (htext : ObjectText es text) : Reads rec.read text a := by
  obtain ⟨ms, hms, hnodup, rfl⟩ := h
  obtain ⟨t, rfl, hlaid⟩ := htext
  have hmembers : Laid '\x7d' rec.MemberText true ms t :=
    hlaid.of_forall₂ hms fun _ _ _ hm ht => hm.memberText ht
  exact Record.reads_object hmembers hnodup (by rw [hrec.incomplete]; nofun)

theorem reads_list (hrec : rec.Plain) {es : List Entry} {text : List Char} {a : α}
    (h : rec.Holds es a) (htext : ListText es text)
    (hnames : es.map Entry.name <+: rec.fields.map Field.name) : Reads rec.read text a := by
  obtain ⟨ms, hms, -, rfl⟩ := h
  obtain ⟨t, rfl, hlaid⟩ := htext
  have hitems : Laid ']' rec.ItemText true ms t :=
    hlaid.of_forall₂ hms fun e m _ hm ht => ht ▸ hm.2.itemText
  exact Record.reads_list hrec.nodup hitems (Gives.names hms ▸ hnames)
    (by rw [hrec.incomplete]; nofun)

theorem replace {es es' : List Entry} {a : α} (h : rec.Holds es a)
    (hes : List.Forall₂ (fun e e' => ∀ m, rec.Gives e m → rec.Gives e' m) es es') :
    rec.Holds es' a := by
  obtain ⟨ms, hms, hnodup, rfl⟩ := h
  have hgives : List.Forall₂ rec.Gives es' ms :=
    (forall₂_comp (List.Forall₂.flip hes) hms).imp fun _ m ⟨_, hreplace, hm⟩ => hreplace m hm
  exact ⟨ms, hgives, hnodup, rfl⟩

theorem keeps {es : List Entry} {a : α} {P : α → Prop} (h : rec.Holds es a) (hstart : P rec.start)
    (hes : ∀ e ∈ es, ∀ m, rec.Gives e m → ∀ a, P a → P (m.store a)) : P a := by
  obtain ⟨ms, hms, -, rfl⟩ := h
  generalize rec.start = a at hstart ⊢
  induction hms generalizing a with
  | nil => exact hstart
  | @cons e m es ms hm _ ih =>
    exact ih (fun e he => hes e (List.mem_cons_of_mem _ he)) _
      (hes e (List.mem_cons_self ..) m hm a hstart)

end Holds

end Record

end LossRelay.Json
