import LossRelay.Proofs.Json.Values
import Mathlib.Data.List.Nodup

/-!
# Objects by what they mention

An object is about a record: each member mentions one thing that can be said, an item of a
`Vocabulary`, or has a name that means nothing and a value of any form.  A `Body` is such a list of
members in which no name of an item occurs twice.  Every text of a body is read to the same values
(`Vocabulary.Fits.reads`), and what is found in a body does not depend on the order of its members
(`Body.find?_rearranged`).
-/

namespace LossRelay.Json

variable {α β γ φ : Type}

/-- What can be said by the members of an object: each item has a name, and texts as its value. -/
structure Vocabulary (φ : Type) where
  name : φ → String
  Text : φ → List Char → Prop

/-- A member of an object: it mentions an item, or has another name and a value of any form. -/
inductive Mention (φ : Type) where
  | known (item : φ)
  | other (name : String) (value : List Char)

def Mention.item? : Mention φ → Option φ
  | .known item => some item
  | .other _ _ => none

namespace Vocabulary

variable (voc : Vocabulary φ)

/-- The text of a member: a literal of its name, a colon, and a text of its value. -/
inductive MemberText : Mention φ → List Char → Prop
  | known {item : φ} {key w w' value : List Char} (hkey : StringText (voc.name item) key)
    (hw : Blanks w) (hw' : Blanks w') (hvalue : voc.Text item value) :
    MemberText (.known item) ('"' :: (key ++ (w ++ ':' :: (w' ++ value))))
  | other {name : String} {key w w' value : List Char} (hkey : StringText name key)
    (hname : ∀ item, voc.name item ≠ name) (hw : Blanks w) (hw' : Blanks w')
    (hvalue : Formed value) :
    MemberText (.other name value) ('"' :: (key ++ (w ++ ':' :: (w' ++ value))))

/-- Something is picked only from the items of one name. -/
def PickedUnder (key : String) (pick : φ → Option β) : Prop :=
  ∀ i b, pick i = some b → voc.name i = key

end Vocabulary

/-- The members of an object, in which no name of an item occurs twice. -/
structure Body (voc : Vocabulary φ) where
  members : List (Mention φ)
  once : ((members.filterMap Mention.item?).map voc.name).Nodup

namespace Body

variable {voc : Vocabulary φ}

/-- The items that a body mentions. -/
def items (b : Body voc) : List φ := b.members.filterMap Mention.item?

/-- The text of a body as an object, with any blanks. -/
def Text (b : Body voc) (text : List Char) : Prop :=
  ∃ t, text = '\x7b' :: t ∧ Laid '\x7d' voc.MemberText true b.members t

/-- The same items in any order, up to a relation between items; other members do not count. -/
def Rearranged (same : φ → φ → Prop) (b b' : Body voc) : Prop :=
  ∃ l, b.items.Perm l ∧ List.Forall₂ same l b'.items

/-! ### What a body says -/

/-- What is found in the items that are mentioned. -/
def find? (b : Body voc) (pick : φ → Option β) : Option β := b.items.findSome? pick

/-- What is found under one name is found in any item that has it. -/
theorem findSome?_eq_some_iff {items : List φ} {pick : φ → Option β} {key : String}
    (hkey : voc.PickedUnder key pick) (honce : (items.map voc.name).Nodup) (b : β) :
    items.findSome? pick = some b ↔ ∃ i ∈ items, pick i = some b := by
  constructor
  · exact List.exists_of_findSome?_eq_some
  · rintro ⟨i, hi, hpick⟩
    cases hfound : items.findSome? pick with
    | none =>
      rw [List.findSome?_eq_none_iff.mp hfound i hi] at hpick
      cases hpick
    | some b' =>
      -- both items have the name, so they are one
      obtain ⟨j, hj, hpick'⟩ := List.exists_of_findSome?_eq_some hfound
      obtain rfl : i = j :=
        List.inj_on_of_nodup_map honce hi hj ((hkey i b hpick).trans (hkey j b' hpick').symm)
      exact hpick'.symm.trans hpick

theorem findSome?_forall₂ {items items' : List φ} {same : φ → φ → Prop} {pick : φ → Option β}
    (hsame : ∀ i j, same i j → pick i = pick j) (h : List.Forall₂ same items items') :
    items.findSome? pick = items'.findSome? pick := by
  induction h with
  | nil => rfl
  | cons hij _ ih => rw [List.findSome?_cons, List.findSome?_cons, hsame _ _ hij, ih]

/-- **What is found in a body does not depend on the order of its members.** -/
theorem find?_rearranged {b b' : Body voc} {same : φ → φ → Prop} {pick : φ → Option β}
    {key : String} (hkey : voc.PickedUnder key pick)
    (hsame : ∀ i j, same i j → pick i = pick j) (h : b.Rearranged same b') :
    b'.find? pick = b.find? pick := by
  obtain ⟨l, hperm, hrel⟩ := h
  have hb : (b.items.map voc.name).Nodup := b.once
  have hl : (l.map voc.name).Nodup := (hperm.map voc.name).nodup_iff.mp hb
  calc b'.items.findSome? pick = l.findSome? pick := (findSome?_forall₂ hsame hrel).symm
    _ = b.items.findSome? pick := Option.ext fun c => by
      simp only [findSome?_eq_some_iff hkey hl, findSome?_eq_some_iff hkey hb, hperm.mem_iff]

/-- What a record holds in a place where each item was stored, one after the other: what is found in
the body, or else what it held before. -/
theorem foldl_store {store : φ → α → α} {place : α → β} {pick : φ → Option β} {key : String}
    (hkey : voc.PickedUnder key pick)
    (hstore : ∀ i a, place (store i a) = (pick i).getD (place a)) (b : Body voc) (a : α) :
    place (b.items.foldl (fun a i => store i a) a) = (b.find? pick).getD (place a) := by
  have hb : (b.items.map voc.name).Nodup := b.once
  unfold find?
  generalize b.items = items at hb ⊢
  induction items generalizing a with
  | nil => rfl
  | cons i items ih =>
    rw [List.map_cons, List.nodup_cons] at hb
    rw [List.foldl_cons, List.findSome?_cons, ih _ hb.2, hstore]
    cases hpick : pick i with
    | none => rfl
    | some c =>
      -- no later item has the name of this one
      have hlater : items.findSome? pick = none := by
        refine List.findSome?_eq_none_iff.mpr fun j hj => Option.eq_none_iff_forall_ne_some.mpr ?_
        intro c' hpick'
        refine hb.1 (List.mem_map.mpr ⟨j, hj, ?_⟩)
        rw [hkey j c' hpick', hkey i c hpick]
      rw [hlater]
      rfl

/-- The same for a place that may hold nothing, and holds nothing at first. -/
theorem foldl_given {store : φ → α → α} {place : α → Option β} {pick : φ → Option β} {key : String}
    (hkey : voc.PickedUnder key pick) (hstore : ∀ i a, place (store i a) = (pick i).or (place a))
    (b : Body voc) {a : α} (ha : place a = none) :
    place (b.items.foldl (fun a i => store i a) a) = b.find? pick := by
  have hkey' : voc.PickedUnder key fun i => (pick i).map some := by
    intro i c hpick
    obtain ⟨c', hpick', -⟩ := Option.map_eq_some_iff.mp hpick
    exact hkey i c' hpick'
  have hstore' (i : φ) (a : α) : place (store i a) = ((pick i).map some).getD (place a) := by
    rw [hstore]
    cases pick i <;> rfl
  have hfound : b.find? (fun i => (pick i).map some) = (b.find? pick).map some :=
    List.map_findSome?.symm
  rw [foldl_store hkey' hstore' b a, hfound, ha]
  cases b.find? pick <;> rfl

end Body

/-! ### Reading a body -/

/-- A record that is read by a vocabulary: every item names a field and is stored in it, and other
names name none. -/
structure Vocabulary.Fits (voc : Vocabulary φ) (rec : Record α) (store : φ → α → α) : Prop where
  known (item : φ) : (rec.field? (voc.name item)).isSome
  unknown (name : String) (h : ∀ item, voc.name item ≠ name) : rec.field? name = none
  reads {item : φ} {text w : List Char} (h : voc.Text item text) (hw : Blanks w) (a : α) :
    Reads (rec.valueOf (voc.name item) a) (w ++ text) (store item a)

/-- What a member does to a record. -/
def Mention.member (voc : Vocabulary φ) (store : φ → α → α) : Mention φ → Member α
  | .known item => ⟨voc.name item, store item⟩
  | .other name _ => ⟨name, id⟩

namespace Vocabulary.Fits

variable {voc : Vocabulary φ} {rec : Record α} {store : φ → α → α}

theorem memberText (hf : voc.Fits rec store) {m : Mention φ} {text : List Char}
    (h : voc.MemberText m text) : rec.MemberText (m.member voc store) text := by
  cases h with
  | known hkey hw hw' hvalue => exact .mk (literal_of_spelled hkey) hw (hf.reads hvalue hw')
  | @other name _ _ _ _ hkey hname hw hw' hvalue =>
    refine .mk (literal_of_spelled hkey) hw fun a rest hrest => ?_
    unfold Record.valueOf
    rw [hf.unknown name hname]
    dsimp only
    rw [List.append_assoc, skip_formed hvalue hw' hrest]
    rfl

/-- The names of fields among those of the members are the names of the items. -/
theorem named_members (hf : voc.Fits rec store) (ms : List (Mention φ))
    (hms : ∀ m ∈ ms, ∃ text, voc.MemberText m text) :
    rec.named (ms.map (Mention.member voc store)) =
      (ms.filterMap Mention.item?).map voc.name := by
  unfold Record.named
  induction ms with
  | nil => rfl
  | cons m ms ih =>
    have ih := ih fun m hm => hms m (List.mem_cons_of_mem _ hm)
    obtain ⟨text, hm⟩ := hms m (List.mem_cons_self ..)
    cases hm with
    | @known item _ _ _ _ _ _ _ _ =>
      have hfield : (rec.field? ((Mention.known item).member voc store).name).isSome :=
        hf.known item
      rw [List.map_cons, List.map_cons, List.filter_cons, if_pos hfield, ih]
      rfl
    | @other name _ _ _ value _ hname _ _ _ =>
      have hfield : ¬(rec.field? ((Mention.other name value).member voc store).name).isSome := by
        simp [Mention.member, hf.unknown name hname]
      rw [List.map_cons, List.map_cons, List.filter_cons, if_neg hfield, ih]
      rfl

theorem foldl_members (voc : Vocabulary φ) (store : φ → α → α) (ms : List (Mention φ)) (a : α) :
    (ms.map (Mention.member voc store)).foldl (fun a m => m.store a) a =
      (ms.filterMap Mention.item?).foldl (fun a i => store i a) a := by
  induction ms generalizing a with
  | nil => rfl
  | cons m ms ih =>
    cases m with
    | known item => exact ih (store item a)
    | other name value => exact ih a

theorem exists_memberText {close : Char} {P : β → List Char → Prop} {first : Bool} {bs : List β}
    {text : List Char} (h : Laid close P first bs text) : ∀ b ∈ bs, ∃ t, P b t := by
  induction h with
  | close _ => exact nofun
  | part _ hb _ ih =>
    rintro b (_ | ⟨_, h⟩)
    · exact ⟨_, hb⟩
    · exact ih b h

/-- **Every text of a body is read to what it mentions**: the values that the record starts with,
with each item stored. -/
theorem reads_body (hf : voc.Fits rec store) (hrec : rec.complete = false) {b : Body voc}
    {text : List Char} (h : b.Text text) :
    Reads rec.read text (b.items.foldl (fun a i => store i a) rec.start) := by
  obtain ⟨t, rfl, hlaid⟩ := h
  have hnamed := hf.named_members b.members (exists_memberText hlaid)
  have honce : (rec.named (b.members.map (Mention.member voc store))).Nodup := hnamed ▸ b.once
  have hmembers := hlaid.map (f := Mention.member voc store) fun _ _ => hf.memberText
  have hread := Record.reads_object hmembers honce (by rw [hrec]; nofun)
  rw [foldl_members] at hread
  exact hread

end Vocabulary.Fits

end LossRelay.Json
