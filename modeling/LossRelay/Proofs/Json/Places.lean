import LossRelay.Proofs.Json.Accepted
import Mathlib.Data.List.Nodup

/-!
# Values by name and by place

A record is written as an object, where each value has a name, or as a list, where the place of a
value tells the field.  A list is read value by value (`Record.reads_list`), like an object member
by member.  Conversely, an object or a list that is accepted consists of values each of which its
field accepts, and stores in any record alike (`Record.exists_of_readMembers`,
`Record.exists_of_readItems`).
-/

namespace LossRelay.Json

variable {α β γ : Type}

/-! ### Parts -/

theorem Laid.exists_forall₂ {close : Char} {P : β → List Char → Prop} {first : Bool} {bs : List β}
    {text : List Char} (h : Laid close P first bs text) {Q : γ → List Char → Prop}
    {R : β → γ → Prop} (hPQ : ∀ b t, P b t → ∃ c, R b c ∧ Q c t) :
    ∃ cs, List.Forall₂ R bs cs ∧ Laid close Q first cs text := by
  induction h with
  | close hw => exact ⟨[], .nil, .close hw⟩
  | part hw hb _ ih =>
    obtain ⟨c, hR, hQ⟩ := hPQ _ _ hb
    obtain ⟨cs, hcs, hlaid⟩ := ih
    exact ⟨c :: cs, .cons hR hcs, .part hw hQ hlaid⟩

theorem Laid.of_forall₂ {close : Char} {P : β → List Char → Prop} {first : Bool} {bs : List β}
    {text : List Char} (h : Laid close P first bs text) {Q : γ → List Char → Prop}
    {R : β → γ → Prop} {cs : List γ} (hcs : List.Forall₂ R bs cs)
    (hPQ : ∀ b c t, R b c → P b t → Q c t) : Laid close Q first cs text := by
  induction h generalizing cs with
  | close hw =>
    cases hcs
    exact .close hw
  | part hw hb _ ih =>
    obtain _ | ⟨hR, hcs⟩ := hcs
    exact .part hw (hPQ _ _ _ hR hb) (ih hcs)

theorem skipBlanks_of_closeList {s r : List Char} (h : closeList s = .ok r) :
    skipBlanks s = ']' :: r := by
  unfold closeList at h
  split at h
  · cases h
  · rename_i heq
    rw [heq, Except.ok.inj h]
  · split at h <;> cases h
  · cases h

theorem closeList_part {first : Bool} {w : List Char} (hw : Separator first w) {c : Char}
    (hc : isBlank c = false) (hbracket : c ≠ ']') {s r : List Char} :
    closeList (w ++ c :: s) ≠ .ok r := by
  intro h
  have hclose := skipBlanks_of_closeList h
  cases first with
  | true =>
    rw [skipBlanks_append hw hc] at hclose
    exact hbracket (List.cons.inj hclose).1
  | false =>
    obtain ⟨v, v', hv, -, rfl⟩ := hw
    rw [List.append_assoc, List.cons_append, skipBlanks_append hv (by decide)] at hclose
    cases hclose

/-! ### Fields -/

/-- A field reads its value by a reader of its own and puts it into the record. -/
structure Field.Stores (f : Field α) (read : Reader β) (put : β → α → α) : Prop where
  read_eq (a : α) (s : List Char) : f.read a s = (do let (b, r) ← read s; .ok (put b a, r))
  exact : Exact read
  lenient : Lenient read

/-- A value of a field is read alike for every record, and stores the same. -/
theorem Field.Stores.of_read {f : Field α} {read : Reader β} {put : β → α → α}
    (hf : f.Stores read put) {text w rest r : List Char} {a a' : α} (htext : Formed text)
    (hw : Blanks w) (hrest : Delimited rest) (h : f.read a (w ++ (text ++ rest)) = .ok (a', r)) :
    r = rest ∧ ∃ b, Reads read text b ∧ a' = put b a := by
  rw [hf.read_eq, hf.lenient w _ hw] at h
  obtain ⟨⟨b, r'⟩, hb, hok⟩ := bind_eq_ok.mp h
  obtain ⟨rfl, rfl⟩ := Prod.mk.inj (Except.ok.inj hok)
  obtain ⟨rfl, hreads⟩ := hf.exact htext hrest hb
  exact ⟨rfl, b, hreads, rfl⟩

theorem Field.Stores.reads {f : Field α} {read : Reader β} {put : β → α → α}
    (hf : f.Stores read put) {text w : List Char} {b : β} (h : Reads read text b) (hw : Blanks w)
    (a : α) : Reads (f.read a) (w ++ text) (put b a) := by
  rw [funext (hf.read_eq a)]
  exact (h.blanks hf.lenient hw).map fun b => put b a

namespace Record

variable {rec : Record α}

/-- Under a name the record reads a value by a reader of its own and stores it. -/
def Puts (rec : Record α) (name : String) (read : Reader β) (put : β → α → α) : Prop :=
  ∃ f, rec.field? name = some f ∧ f.Stores read put

/-- A record of which every field may be left out, with fields of different names. -/
structure Plain (rec : Record α) : Prop where
  puts : ∀ name ∈ rec.fields.map Field.name,
    ∃ (β : Type) (read : Reader β) (put : β → α → α), rec.Puts name read put
  nodup : (rec.fields.map Field.name).Nodup
  incomplete : rec.complete = false

/-- A text is a value that is read as the value of a member, behind any blanks. -/
def ValueText (rec : Record α) (m : Member α) (text : List Char) : Prop :=
  Formed text ∧ ∀ a w, Blanks w → Reads (rec.valueOf m.name a) (w ++ text) (m.store a)

theorem field?_mem {name : String} {f : Field α} (h : rec.field? name = some f) :
    f ∈ rec.fields ∧ f.name = name :=
  ⟨List.mem_of_find?_eq_some h, by simpa using List.find?_some h⟩

theorem valueOf_field {name : String} {f : Field α} (h : rec.field? name = some f) :
    rec.valueOf name = f.read := by
  funext a
  unfold valueOf
  rw [h]

theorem valueText_other {name : String} (h : rec.field? name = none) {text : List Char}
    (htext : Formed text) : rec.ValueText ⟨name, id⟩ text := by
  refine ⟨htext, fun a w hw rest hrest => ?_⟩
  unfold valueOf
  dsimp only
  rw [h, List.append_assoc]
  dsimp only
  rw [skip_formed htext hw hrest]
  rfl

theorem valueText_of_read (hrec : rec.Plain) {name : String} {f : Field α}
    (hf : rec.field? name = some f) {text w rest r : List Char} {a a' : α} (htext : Formed text)
    (hw : Blanks w) (hrest : Delimited rest) (h : f.read a (w ++ (text ++ rest)) = .ok (a', r)) :
    r = rest ∧ ∃ store : α → α, store a = a' ∧ rec.ValueText ⟨name, store⟩ text := by
  obtain ⟨hmem, hname⟩ := field?_mem hf
  obtain ⟨_, read, put, f', hf', hstores⟩ :=
    hrec.puts name (hname ▸ List.mem_map_of_mem hmem)
  obtain rfl := Option.some.inj (hf.symm.trans hf')
  obtain ⟨rfl, b, hb, rfl⟩ := hstores.of_read htext hw hrest h
  refine ⟨rfl, put b, rfl, htext, fun a w hw => ?_⟩
  rw [valueOf_field hf]
  exact hstores.reads hb hw a

/-! ### Values by place -/

/-- The text of an item of a list: a value that is read as the value of a member. -/
def ItemText (rec : Record α) (m : Member α) (text : List Char) : Prop :=
  (∃ c t, text = c :: t ∧ isBlank c = false ∧ c ≠ ']') ∧
    ∀ a, Reads (rec.valueOf m.name a) text (m.store a)

/-- In a list without names the values are those of the fields in order. -/
theorem readItems_laid {first : Bool} {ms : List (Member α)} {text : List Char}
    (h : Laid ']' rec.ItemText first ms text) {fs : List (Field α)}
    (hfs : ∀ f ∈ fs, rec.field? f.name = some f)
    (hnames : ms.map Member.name <+: fs.map Field.name)
    (hcomplete : rec.complete = true → ms.length = fs.length) (count : Nat)
    (hcount : (count == 0) = first) (a : α) (rest : List Char) :
    ∃ w, Blanks w ∧ rec.readItems fs count a (text ++ rest) =
      .ok (ms.foldl (fun a m => m.store a) a, w ++ ']' :: rest) := by
  induction h generalizing fs count a with
  | @close _ w hw =>
    refine ⟨w, hw, ?_⟩
    rw [List.append_assoc, List.singleton_append]
    cases fs with
    | nil => rfl
    | cons f fs =>
      -- the values of the other fields are missing
      have hincomplete : ¬ rec.complete = true := fun h => by cases hcomplete h
      rw [readItems]
      simp only [nextItem_close _ hw, ok_bind, if_neg hincomplete]
      rfl
  | @part first w text more m ms hw hm hmore ih =>
    cases fs with
    | nil => cases List.prefix_nil.mp hnames
    | cons f fs =>
      obtain ⟨⟨c, t, rfl, hc, hbracket⟩, hread⟩ := hm
      obtain ⟨hname, hnames⟩ := List.cons_prefix_cons.mp hnames
      have hfield := hfs f (List.mem_cons_self ..)
      rw [← hname] at hfield
      have hvalue := hread a _ (hmore.delimited (Or.inl rfl) rest)
      rw [valueOf_field hfield] at hvalue
      obtain ⟨w', hw', hitems⟩ := ih (fun f hf => hfs f (List.mem_cons_of_mem _ hf)) hnames
        (fun h => Nat.succ.inj (hcomplete h)) (count + 1) rfl (m.store a)
      refine ⟨w', hw', ?_⟩
      rw [readItems, hcount, List.append_assoc, List.append_assoc, List.cons_append]
      simp only [nextItem_part hw hc hbracket, ok_bind]
      rw [← List.cons_append, hvalue]
      exact hitems

theorem field?_of_mem (hnodup : (rec.fields.map Field.name).Nodup) {f : Field α}
    (hf : f ∈ rec.fields) : rec.field? f.name = some f := by
  cases hfound : rec.field? f.name with
  | none =>
    have hnone := List.find?_eq_none.mp hfound f hf
    simp at hnone
  | some g =>
    obtain ⟨hg, hname⟩ := field?_mem hfound
    rw [List.inj_on_of_nodup_map hnodup hg hf hname]

/-- **A list is read value by value**, in the order of the fields; only values at the end may be
missing, and none of a complete record. -/
theorem reads_list (hnodup : (rec.fields.map Field.name).Nodup) {ms : List (Member α)}
    {text : List Char} (h : Laid ']' rec.ItemText true ms text)
    (hnames : ms.map Member.name <+: rec.fields.map Field.name)
    (hcomplete : rec.complete = true → ms.length = rec.fields.length) :
    Reads rec.read ('[' :: text) (ms.foldl (fun a m => m.store a) rec.start) := by
  intro rest _
  obtain ⟨w, hw, hitems⟩ := readItems_laid h (fun f hf => field?_of_mem hnodup hf) hnames
    hcomplete 0 rfl rec.start rest
  unfold read
  rw [List.cons_append, skipBlanks_cons (by decide)]
  change (rec.readItems rec.fields 0 rec.start (text ++ rest) >>= _) = _
  rw [hitems, ok_bind]
  dsimp only
  rw [closeList_close hw]
  rfl

theorem exists_of_readItems (hrec : rec.Plain) {first : Bool} {ts : List (List Char)}
    {text : List Char} (h : Laid ']' Eq first ts text) (hts : ∀ t ∈ ts, Formed t)
    {fs : List (Field α)} (hfs : ∀ f ∈ fs, rec.field? f.name = some f) (count : Nat)
    (hcount : (count == 0) = first) {a b : α} {rest s r : List Char}
    (hread : rec.readItems fs count a (text ++ rest) = .ok (b, s)) (hclose : closeList s = .ok r) :
    ∃ ms, ms.map Member.name <+: fs.map Field.name ∧
      List.Forall₂ (fun t m => rec.ValueText m t) ts ms := by
  induction h generalizing fs count a with
  | close _ => exact ⟨[], List.nil_prefix, .nil⟩
  | @part first w text more t ts hw ht hmore ih =>
    subst ht
    have hformed := hts t (List.mem_cons_self ..)
    obtain ⟨c, t', rfl, hc, hbracket⟩ := hformed.head
    cases fs with
    | nil =>
      obtain ⟨-, rfl⟩ := Prod.mk.inj (Except.ok.inj hread)
      rw [List.append_assoc, List.append_assoc, List.cons_append] at hclose
      exact absurd hclose (closeList_part hw hc hbracket)
    | cons f fs =>
      simp only [readItems, hcount, List.append_assoc, List.cons_append,
        nextItem_part hw hc hbracket, ok_bind] at hread
      obtain ⟨⟨a', r'⟩, hvalue, hread⟩ := bind_eq_ok.mp hread
      obtain ⟨rfl, store, -, hstore⟩ := valueText_of_read hrec (hfs f (List.mem_cons_self ..))
        hformed blanks_nil (hmore.delimited (Or.inl rfl) rest) hvalue
      obtain ⟨ms, hnames, hms⟩ := ih (fun t ht => hts t (List.mem_cons_of_mem _ ht))
        (fun f hf => hfs f (List.mem_cons_of_mem _ hf)) (count + 1) rfl hread
      exact ⟨⟨f.name, store⟩ :: ms, List.cons_prefix_cons.mpr ⟨rfl, hnames⟩, .cons hstore hms⟩

/-! ### Values by name -/

/-- A member that a name and a value in an object stand for. -/
def Stands (rec : Record α) (raw : RawMember) (m : Member α) : Prop :=
  Spelled m.name.toList raw.key ∧ rec.ValueText m raw.value

/-- One member of an accepted object: it stands for something to store, and names no field that has
been given. -/
theorem exists_of_member (hrec : rec.Plain) {first : Bool} {w text rest : List Char}
    {raw : RawMember} (hw : Separator first w) (hraw : raw.Text text) (hvalue : Formed raw.value)
    (hrest : Delimited rest) {fuel : Nat} {seen : List String} {a : α}
    {outcome : (α × List String) × List Char}
    (hread : rec.readMembers (fuel + 1) seen first a (w ++ (text ++ rest)) = .ok outcome) :
    ∃ m a', rec.Stands raw m ∧ (∀ name ∈ rec.named [m], name ∉ seen) ∧
      rec.readMembers fuel (rec.named [m] ++ seen) false a' rest = .ok outcome := by
  obtain ⟨hkey, v, v', hv, hv', rfl⟩ := hraw
  simp only [readMembers, List.append_assoc, List.cons_append, nextKey_part hw, ok_bind] at hread
  obtain ⟨⟨name, t⟩, hname, hread⟩ := bind_eq_ok.mp hread
  obtain ⟨hspelled, rfl⟩ := spelled_of_string hkey hname
  dsimp only at hread
  cases hfield : rec.field? name with
  | some f =>
    unfold field? at hfield
    rw [hfield] at hread
    dsimp only at hread
    split at hread
    · cases hread
    · rename_i hseen
      rw [colon_blanks hv, ok_bind] at hread
      obtain ⟨⟨a', r⟩, hstored, hmore⟩ := bind_eq_ok.mp hread
      obtain ⟨rfl, store, -, hstore⟩ := valueText_of_read hrec hfield hvalue hv' hrest hstored
      have hnamed : rec.named [⟨name, store⟩] = [name] := by simp [named, field?, hfield]
      refine ⟨⟨name, store⟩, a', ⟨hspelled, hstore⟩, ?_, hnamed ▸ hmore⟩
      simpa [hnamed] using hseen
  | none =>
    have hother := valueText_other hfield hvalue
    have hnamed : rec.named [⟨name, id⟩] = [] := by simp [named, hfield]
    unfold field? at hfield
    rw [hfield] at hread
    dsimp only at hread
    rw [colon_blanks hv, ok_bind, skip_formed hvalue hv' hrest, ok_bind] at hread
    refine ⟨⟨name, id⟩, a, ⟨hspelled, hother⟩, ?_, hnamed ▸ hread⟩
    simp [hnamed]

/-- What the members of an accepted object store; no field is named twice. -/
theorem exists_of_readMembers (hrec : rec.Plain) {first : Bool} {raws : List RawMember}
    {text : List Char} (h : Laid '\x7d' RawMember.Text first raws text)
    (hraws : ∀ raw ∈ raws, Formed raw.value) {fuel : Nat} {seen : List String} {a : α}
    {rest : List Char} {outcome : (α × List String) × List Char}
    (hread : rec.readMembers fuel seen first a (text ++ rest) = .ok outcome) :
    ∃ ms, List.Forall₂ rec.Stands raws ms ∧ (rec.named ms).Nodup ∧
      ∀ name ∈ rec.named ms, name ∉ seen := by
  induction h generalizing fuel seen a with
  | close _ => exact ⟨[], .nil, List.nodup_nil, nofun⟩
  | @part first w text more raw raws hw hraw hmore ih =>
    cases fuel with
    | zero => cases hread
    | succ fuel =>
      rw [List.append_assoc, List.append_assoc] at hread
      obtain ⟨m, a', hm, hfresh, hread⟩ := exists_of_member hrec hw hraw
        (hraws raw (List.mem_cons_self ..)) (hmore.delimited (Or.inr rfl) rest) hread
      obtain ⟨ms, hms, hnodup, hlater⟩ :=
        ih (fun raw h => hraws raw (List.mem_cons_of_mem _ h)) hread
      have hone : (rec.named [m]).Nodup :=
        List.Nodup.filter _ (List.nodup_singleton m.name)
      refine ⟨m :: ms, .cons hm hms, ?_, ?_⟩
      · rw [named_cons]
        refine List.nodup_append.mpr ⟨hone, hnodup, fun name hname name' hname' heq => ?_⟩
        exact hlater name' hname' (List.mem_append_left _ (heq ▸ hname))
      · rw [named_cons]
        intro name hname
        rcases List.mem_append.mp hname with hname | hname
        · exact hfresh name hname
        · exact fun hmem => hlater name hname (List.mem_append_right _ hmem)

end Record

end LossRelay.Json
