import LossRelay.Proofs.Config.Given
import LossRelay.Proofs.Json.Entries

/-!
# Policy documents without names

In a policy document an object that lists the first fields in order of declaration may be replaced
by the list of its values: at the top, in the part for the index rule and in the part for the block
rule, each on its own or together.  The document is read to the same settings, and the fields that
the object does not list keep their reference values (`PolicySettings.ofDocument_unnamed`).
-/

namespace LossRelay

open Json

/-- An object that lists the first `k` names in order, and the list of the same `k` values. -/
def Unnamed (names : List String) (k : Nat) (v v' : List Char) : Prop :=
  ∃ es : List Entry, es.length = k ∧ es.map Entry.name <+: names ∧
    (∀ e ∈ es, Formed e.value) ∧ ObjectText es v ∧ ListText es v'

theorem Unnamed.formed {names : List String} {k : Nat} {v v' : List Char}
    (h : Unnamed names k v v') : Formed v ∧ Formed v' := by
  obtain ⟨es, -, -, hformed, hv, hv'⟩ := h
  exact ⟨hv.formed hformed, hv'.formed hformed⟩

theorem mem_three {x y z name : String} {es : List Entry} {k : Nat} (hk : es.length = k)
    (hnames : es.map Entry.name <+: [x, y, z]) (h : name ∈ es.map Entry.name) :
    0 < k ∧ name = x ∨ 1 < k ∧ name = y ∨ 2 < k ∧ name = z := by
  rw [List.prefix_iff_eq_take.mp hnames, List.length_map, hk] at h
  rcases k with _ | _ | _ | k <;> simp_all

/-! ### The index rule -/

namespace IndexRule

def names : List String := ["kappa", "target_source", "payload_repair"]

theorem puts_windowEnd :
    record.Puts "kappa" natural64 fun n rule => { rule with windowEnd := n } :=
  ⟨_, rfl, fun _ _ => rfl, natural_exact _ _, natural_lenient _ _⟩

theorem readIndices_exact : Exact readIndices :=
  (list_exact (natural_exact _ _)).map IndexSet.ofList

theorem readIndices_lenient : Lenient readIndices := by
  intro w s hw
  unfold readIndices
  rw [list_lenient _ w s hw]

theorem puts_targets :
    record.Puts "target_source" readIndices fun xs rule => { rule with targets := xs } :=
  ⟨_, rfl, fun _ _ => rfl, readIndices_exact, readIndices_lenient⟩

theorem puts_exempt :
    record.Puts "payload_repair" readIndices fun xs rule => { rule with exempt := xs } :=
  ⟨_, rfl, fun _ _ => rfl, readIndices_exact, readIndices_lenient⟩

theorem plain : record.Plain where
  puts := by
    rintro name (_ | ⟨_, _ | ⟨_, _ | ⟨_, ⟨⟩⟩⟩⟩)
    · exact ⟨_, _, _, puts_windowEnd⟩
    · exact ⟨_, _, _, puts_targets⟩
    · exact ⟨_, _, _, puts_exempt⟩
  nodup := by decide
  incomplete := rfl

/-- The parameters from the given place on are the reference parameters. -/
structure ReferenceFrom (k : Nat) (rule : IndexRule) : Prop where
  windowEnd : k ≤ 0 → rule.windowEnd = reference.windowEnd
  targets : k ≤ 1 → rule.targets = reference.targets
  exempt : k ≤ 2 → rule.exempt = reference.exempt

/-- A list of the first values is read like the object, and the other parameters are the reference
parameters. -/
theorem reads_unnamed {k : Nat} {v v' : List Char} (h : Unnamed names k v v') {rule : IndexRule}
    (hread : Reads record.read v rule) :
    Reads record.read v' rule ∧ rule.ReferenceFrom k := by
  obtain ⟨es, hk, hnames, hformed, hv, hv'⟩ := h
  have hholds := plain.holds_object hv hformed hread
  refine ⟨hholds.reads_list plain hv' hnames,
    hholds.keeps ⟨fun _ => rfl, fun _ => rfl, fun _ => rfl⟩ fun e he m hm rule hrule => ?_⟩
  -- an entry stores the parameter of its place, which is in front of `k`
  rcases mem_three hk hnames (List.mem_map_of_mem he) with ⟨hk, hname⟩ | ⟨hk, hname⟩ | ⟨hk, hname⟩
  · exact hm.store_of_put (hname ▸ puts_windowEnd) fun _ =>
      ⟨fun h => absurd h (by omega), hrule.targets, hrule.exempt⟩
  · exact hm.store_of_put (hname ▸ puts_targets) fun _ =>
      ⟨hrule.windowEnd, fun h => absurd h (by omega), hrule.exempt⟩
  · exact hm.store_of_put (hname ▸ puts_exempt) fun _ =>
      ⟨hrule.windowEnd, hrule.targets, fun h => absurd h (by omega)⟩

end IndexRule

/-! ### The block rule -/

namespace BlockRule

def names : List String := ["encoding_overhead_ms", "calibrated_block_size", "target_offset"]

theorem puts_silenceMs :
    record.Puts "encoding_overhead_ms" natural64 fun n rule => { rule with silenceMs := n } :=
  ⟨_, rfl, fun _ _ => rfl, natural_exact _ _, natural_lenient _ _⟩

theorem puts_tunedSize :
    record.Puts "calibrated_block_size" natural64 fun n rule => { rule with tunedSize := n } :=
  ⟨_, rfl, fun _ _ => rfl, natural_exact _ _, natural_lenient _ _⟩

theorem puts_offset :
    record.Puts "target_offset" natural64 fun n rule => { rule with offset := n } :=
  ⟨_, rfl, fun _ _ => rfl, natural_exact _ _, natural_lenient _ _⟩

theorem plain : record.Plain where
  puts := by
    rintro name (_ | ⟨_, _ | ⟨_, _ | ⟨_, ⟨⟩⟩⟩⟩)
    · exact ⟨_, _, _, puts_silenceMs⟩
    · exact ⟨_, _, _, puts_tunedSize⟩
    · exact ⟨_, _, _, puts_offset⟩
  nodup := by decide
  incomplete := rfl

@[inherit_doc IndexRule.ReferenceFrom]
structure ReferenceFrom (k : Nat) (rule : BlockRule) : Prop where
  silenceMs : k ≤ 0 → rule.silenceMs = reference.silenceMs
  tunedSize : k ≤ 1 → rule.tunedSize = reference.tunedSize
  offset : k ≤ 2 → rule.offset = reference.offset

@[inherit_doc IndexRule.reads_unnamed]
theorem reads_unnamed {k : Nat} {v v' : List Char} (h : Unnamed names k v v') {rule : BlockRule}
    (hread : Reads record.read v rule) :
    Reads record.read v' rule ∧ rule.ReferenceFrom k := by
  obtain ⟨es, hk, hnames, hformed, hv, hv'⟩ := h
  have hholds := plain.holds_object hv hformed hread
  refine ⟨hholds.reads_list plain hv' hnames,
    hholds.keeps ⟨fun _ => rfl, fun _ => rfl, fun _ => rfl⟩ fun e he m hm rule hrule => ?_⟩
  -- an entry stores the parameter of its place, which is in front of `k`
  rcases mem_three hk hnames (List.mem_map_of_mem he) with ⟨hk, hname⟩ | ⟨hk, hname⟩ | ⟨hk, hname⟩
  · exact hm.store_of_put (hname ▸ puts_silenceMs) fun _ =>
      ⟨fun h => absurd h (by omega), hrule.tunedSize, hrule.offset⟩
  · exact hm.store_of_put (hname ▸ puts_tunedSize) fun _ =>
      ⟨hrule.silenceMs, fun h => absurd h (by omega), hrule.offset⟩
  · exact hm.store_of_put (hname ▸ puts_offset) fun _ =>
      ⟨hrule.silenceMs, hrule.tunedSize, fun h => absurd h (by omega)⟩

end BlockRule

/-! ### All settings -/

@[inherit_doc IndexRule.ReferenceFrom]
structure PolicySettings.ReferenceFrom (k : Nat) (settings : PolicySettings) : Prop where
  kind : k ≤ 0 → settings.kind = reference.kind
  indexRule : k ≤ 1 → settings.indexRule = reference.indexRule
  blockRule : k ≤ 2 → settings.blockRule = reference.blockRule

/-- Where objects are replaced by lists: the number of fields that the object lists, in each place
where it is replaced. -/
structure Unnaming where
  top : Option Nat
  indexRule : Option Nat
  blockRule : Option Nat

namespace Unnaming

/-- An entry of the settings before and after: the value of a part is replaced if the part is, and
any other value stays. -/
inductive Part (p : Unnaming) : Entry → Entry → Prop
  | indexRule {k : Nat} {v v' : List Char} (hk : p.indexRule = some k)
    (h : Unnamed IndexRule.names k v v') : Part p ⟨"static_drop", v⟩ ⟨"static_drop", v'⟩
  | blockRule {k : Nat} {v v' : List Char} (hk : p.blockRule = some k)
    (h : Unnamed BlockRule.names k v v') : Part p ⟨"adaptive", v⟩ ⟨"adaptive", v'⟩
  | same {e : Entry} (hformed : Formed e.value)
    (hindex : e.name = "static_drop" → p.indexRule = none)
    (hblock : e.name = "adaptive" → p.blockRule = none) : Part p e e

def names : List String := ["kind", "static_drop", "adaptive"]

/-- The settings before and after: an object with any members or a list stays what it is, or an
object that lists the first names in order is replaced by a list. -/
inductive Value (p : Unnaming) : List Char → List Char → Prop
  | object {es es' : List Entry} {v v' : List Char} (htop : p.top = none)
    (hes : List.Forall₂ p.Part es es') (hv : ObjectText es v) (hv' : ObjectText es' v') :
    Value p v v'
  | list {es es' : List Entry} {v v' : List Char} (htop : p.top = none)
    (hes : List.Forall₂ p.Part es es') (hnames : es.map Entry.name <+: names)
    (hv : ListText es v) (hv' : ListText es' v') : Value p v v'
  | unnamed {es es' : List Entry} {v v' : List Char} (htop : p.top = some es.length)
    (hes : List.Forall₂ p.Part es es') (hnames : es.map Entry.name <+: names)
    (hv : ObjectText es v) (hv' : ListText es' v') : Value p v v'

/-- In every place that is replaced, the fields that are not listed have their reference values. -/
structure RestReference (p : Unnaming) (settings : PolicySettings) : Prop where
  top : ∀ k ∈ p.top, settings.ReferenceFrom k
  indexRule : ∀ k ∈ p.indexRule, settings.indexRule.ReferenceFrom k
  blockRule : ∀ k ∈ p.blockRule, settings.blockRule.ReferenceFrom k

/-- A document before and after, with any blanks. -/
def Document (p : Unnaming) (text text' : String) : Prop :=
  ∃ w v w' u v' u', Blanks w ∧ Blanks w' ∧ Blanks u ∧ Blanks u' ∧ p.Value v v' ∧
    text.toList = w ++ (v ++ w') ∧ text'.toList = u ++ (v' ++ u')

end Unnaming

namespace PolicySettings

theorem puts_kind :
    record.Puts "kind" PolicyKind.choice.read fun kind settings => { settings with kind } :=
  ⟨_, rfl, fun _ _ => rfl, Choice.exact _, Choice.lenient _⟩

theorem puts_indexRule :
    record.Puts "static_drop" IndexRule.record.read
      fun indexRule settings => { settings with indexRule } :=
  ⟨_, rfl, fun _ _ => rfl, IndexRule.plain.exact, Record.lenient _⟩

theorem puts_blockRule :
    record.Puts "adaptive" BlockRule.record.read
      fun blockRule settings => { settings with blockRule } :=
  ⟨_, rfl, fun _ _ => rfl, BlockRule.plain.exact, Record.lenient _⟩

theorem plain : record.Plain where
  puts := by
    rintro name (_ | ⟨_, _ | ⟨_, _ | ⟨_, ⟨⟩⟩⟩⟩)
    · exact ⟨_, _, _, puts_kind⟩
    · exact ⟨_, _, _, puts_indexRule⟩
    · exact ⟨_, _, _, puts_blockRule⟩
  nodup := by decide
  incomplete := rfl

theorem indexRule_kept {e : Entry} {m : Member PolicySettings} (h : record.Gives e m)
    (hname : e.name ≠ "static_drop") (settings : PolicySettings) :
    (m.store settings).indexRule = settings.indexRule := by
  refine h.kept hname ?_ settings
  rintro name (_ | ⟨_, _ | ⟨_, _ | ⟨_, ⟨⟩⟩⟩⟩) hne
  · exact ⟨_, _, _, puts_kind, fun _ _ => rfl⟩
  · exact absurd rfl hne
  · exact ⟨_, _, _, puts_blockRule, fun _ _ => rfl⟩

theorem blockRule_kept {e : Entry} {m : Member PolicySettings} (h : record.Gives e m)
    (hname : e.name ≠ "adaptive") (settings : PolicySettings) :
    (m.store settings).blockRule = settings.blockRule := by
  refine h.kept hname ?_ settings
  rintro name (_ | ⟨_, _ | ⟨_, _ | ⟨_, ⟨⟩⟩⟩⟩) hne
  · exact ⟨_, _, _, puts_kind, fun _ _ => rfl⟩
  · exact ⟨_, _, _, puts_indexRule, fun _ _ => rfl⟩
  · exact absurd rfl hne

end PolicySettings

namespace Unnaming

variable {p : Unnaming}

theorem Part.gives {e e' : Entry} (h : p.Part e e') {m : Member PolicySettings}
    (hm : PolicySettings.record.Gives e m) : PolicySettings.record.Gives e' m := by
  cases h with
  | indexRule _ h =>
    exact hm.replace PolicySettings.puts_indexRule h.formed.2
      fun _ hread => (IndexRule.reads_unnamed h hread).1
  | blockRule _ h =>
    exact hm.replace PolicySettings.puts_blockRule h.formed.2
      fun _ hread => (BlockRule.reads_unnamed h hread).1
  | same _ _ _ => exact hm

theorem Part.names {es es' : List Entry} (h : List.Forall₂ p.Part es es') :
    es'.map Entry.name = es.map Entry.name := by
  induction h with
  | nil => rfl
  | cons he _ ih =>
    rw [List.map_cons, List.map_cons, ih]
    cases he <;> rfl

theorem Part.formed {e e' : Entry} (h : p.Part e e') : Formed e.value := by
  cases h with
  | indexRule _ h => exact h.formed.1
  | blockRule _ h => exact h.formed.1
  | same hformed _ _ => exact hformed

theorem Part.formed_all {es es' : List Entry} (h : List.Forall₂ p.Part es es') :
    ∀ e ∈ es, Formed e.value := by
  intro e he
  obtain ⟨e', -, hpart⟩ := exists_of_forall₂ h he
  exact hpart.formed

theorem indexRule_reference {es es' : List Entry} (hes : List.Forall₂ p.Part es es')
    {settings : PolicySettings} (h : PolicySettings.record.Holds es settings) {k : Nat}
    (hk : p.indexRule = some k) : settings.indexRule.ReferenceFrom k := by
  refine h.keeps (P := fun settings => settings.indexRule.ReferenceFrom k)
    ⟨fun _ => rfl, fun _ => rfl, fun _ => rfl⟩ fun e he m hm settings hsettings => ?_
  by_cases hname : e.name = "static_drop"
  · obtain ⟨e', -, hpart⟩ := exists_of_forall₂ hes he
    cases hpart with
    | indexRule hk' hunnamed =>
      obtain rfl := Option.some.inj (hk.symm.trans hk')
      obtain ⟨rule, hread, hstore⟩ := hm.stored PolicySettings.puts_indexRule
      rw [hstore]
      exact (IndexRule.reads_unnamed hunnamed hread).2
    | blockRule _ _ => simp at hname
    | same _ hindex _ => cases hk.symm.trans (hindex hname)
  · rw [PolicySettings.indexRule_kept hm hname]
    exact hsettings

theorem blockRule_reference {es es' : List Entry} (hes : List.Forall₂ p.Part es es')
    {settings : PolicySettings} (h : PolicySettings.record.Holds es settings) {k : Nat}
    (hk : p.blockRule = some k) : settings.blockRule.ReferenceFrom k := by
  refine h.keeps (P := fun settings => settings.blockRule.ReferenceFrom k)
    ⟨fun _ => rfl, fun _ => rfl, fun _ => rfl⟩ fun e he m hm settings hsettings => ?_
  by_cases hname : e.name = "adaptive"
  · obtain ⟨e', -, hpart⟩ := exists_of_forall₂ hes he
    cases hpart with
    | indexRule _ _ => simp at hname
    | blockRule hk' hunnamed =>
      obtain rfl := Option.some.inj (hk.symm.trans hk')
      obtain ⟨rule, hread, hstore⟩ := hm.stored PolicySettings.puts_blockRule
      rw [hstore]
      exact (BlockRule.reads_unnamed hunnamed hread).2
    | same _ _ hblock => cases hk.symm.trans (hblock hname)
  · rw [PolicySettings.blockRule_kept hm hname]
    exact hsettings

theorem top_reference {es : List Entry} (hnames : es.map Entry.name <+: names)
    {settings : PolicySettings} (h : PolicySettings.record.Holds es settings) :
    settings.ReferenceFrom es.length := by
  refine h.keeps ⟨fun _ => rfl, fun _ => rfl, fun _ => rfl⟩ fun e he m hm settings hsettings => ?_
  rcases mem_three rfl hnames (List.mem_map_of_mem he) with
    ⟨hk, hname⟩ | ⟨hk, hname⟩ | ⟨hk, hname⟩
  · exact hm.store_of_put (hname ▸ PolicySettings.puts_kind) fun _ =>
      ⟨fun h => absurd h (by omega), hsettings.indexRule, hsettings.blockRule⟩
  · exact hm.store_of_put (hname ▸ PolicySettings.puts_indexRule) fun _ =>
      ⟨hsettings.kind, fun h => absurd h (by omega), hsettings.blockRule⟩
  · exact hm.store_of_put (hname ▸ PolicySettings.puts_blockRule) fun _ =>
      ⟨hsettings.kind, hsettings.indexRule, fun h => absurd h (by omega)⟩

theorem Value.formed {v v' : List Char} (h : p.Value v v') : Formed v := by
  cases h with
  | object _ hes hv _ => exact hv.formed (Part.formed_all hes)
  | list _ hes _ hv _ => exact hv.formed (Part.formed_all hes)
  | unnamed _ hes _ hv _ => exact hv.formed (Part.formed_all hes)

/-- **Settings are read alike with and without names**, in any of the places. -/
theorem Value.reads {v v' : List Char} (h : p.Value v v') {settings : PolicySettings}
    (hread : Reads PolicySettings.record.read v settings) :
    Reads PolicySettings.record.read v' settings ∧ p.RestReference settings := by
  have hafter {es es' : List Entry} (hes : List.Forall₂ p.Part es es')
      (hholds : PolicySettings.record.Holds es settings) :
      PolicySettings.record.Holds es' settings :=
    hholds.replace (hes.imp fun _ _ he _ => he.gives)
  have hrest {es es' : List Entry} (hes : List.Forall₂ p.Part es es')
      (hholds : PolicySettings.record.Holds es settings)
      (htop : ∀ k ∈ p.top, settings.ReferenceFrom k) : p.RestReference settings :=
    ⟨htop, fun k => indexRule_reference hes hholds, fun k => blockRule_reference hes hholds⟩
  cases h with
  | object htop hes hv hv' =>
    have hholds := PolicySettings.plain.holds_object hv (Part.formed_all hes) hread
    refine ⟨(hafter hes hholds).reads_object PolicySettings.plain hv',
      hrest hes hholds fun k hk => ?_⟩
    rw [htop] at hk
    cases hk
  | list htop hes hnames hv hv' =>
    have hholds := PolicySettings.plain.holds_list hv (Part.formed_all hes) hnames hread
    refine ⟨(hafter hes hholds).reads_list PolicySettings.plain hv' (Part.names hes ▸ hnames),
      hrest hes hholds fun k hk => ?_⟩
    rw [htop] at hk
    cases hk
  | unnamed htop hes hnames hv hv' =>
    have hholds := PolicySettings.plain.holds_object hv (Part.formed_all hes) hread
    refine ⟨(hafter hes hholds).reads_list PolicySettings.plain hv' (Part.names hes ▸ hnames),
      hrest hes hholds fun k hk => ?_⟩
    rw [htop] at hk
    obtain rfl := Option.some.inj hk
    exact top_reference hnames hholds

end Unnaming

namespace PolicySettings

/-- **A policy document may be written without names.**  Where the object of an accepted document
lists the first fields in order of declaration, at the top, in the part for the index rule, in the
part for the block rule, or in several of these places, it may be replaced by the list of its
values: the outcome is the same, and there the fields that are not listed have their reference
values. -/
theorem ofDocument_unnamed {p : Unnaming} {text text' : String} {settings : PolicySettings}
    (h : p.Document text text') (haccepted : ofDocument text = .ok settings) :
    ofDocument text' = .ok settings ∧ p.RestReference settings := by
  obtain ⟨w, v, w', u, v', u', hw, hw', hu, hu', hvalue, htext, htext'⟩ := h
  obtain ⟨hdocument, hfit⟩ := ofDocument_eq_ok.mp haccepted
  obtain ⟨hread, hrest⟩ :=
    hvalue.reads (plain.exact.of_document record.lenient hvalue.formed hw hw' htext hdocument)
  exact ⟨ofDocument_eq_ok.mpr ⟨document_of_blanks hread record.lenient hu hu' htext', hfit⟩, hrest⟩

/-- The same settings with all names, and without any. -/
theorem ofDocument_unnamed_everywhere :
    let text := "\x7b\"kind\":\"adaptive\",\"static_drop\":\x7b\"kappa\":5\x7d," ++
      "\"adaptive\":\x7b\"encoding_overhead_ms\":7,\"calibrated_block_size\":200\x7d\x7d"
    let text' := "[\"adaptive\", [5], [7, 200]]"
    let settings : PolicySettings :=
      ⟨.byBlock, ⟨5, .ofList [0, 4, 8], .ofList [10, 11, 12]⟩, ⟨7, 200, 100⟩⟩
    ofDocument text = .ok settings ∧ ofDocument text' = .ok settings ∧
      settings.indexRule.ReferenceFrom 1 ∧ settings.blockRule.ReferenceFrom 2 := by
  intro text text' settings
  have haccepted : ofDocument text = .ok settings := by
    have hread : (ofDocument text).toOption = some settings := by decide +kernel
    cases h : ofDocument text with
    | error e =>
      rw [h] at hread
      cases hread
    | ok read =>
      rw [h] at hread
      rw [Option.some.inj hread]
  have hspace : Blanks [' '] := by simp [Blanks, isBlank]
  have hcomma : Separator false [','] := ⟨[], [], blanks_nil, blanks_nil, rfl⟩
  have hcommaSpace : Separator false [',', ' '] := ⟨[], [' '], blanks_nil, hspace, rfl⟩
  have hmember (name : String) (hname : name.toList.all isPlain = true) (value : List Char) :
      Entry.Text ⟨name, value⟩ ('"' :: ((name.toList ++ ['"']) ++ ([] ++ ':' :: ([] ++ value)))) :=
    ⟨_, [], [], stringText_plain hname, blanks_nil, blanks_nil, rfl⟩
  have hindex : Unnamed IndexRule.names 1 _ _ :=
    ⟨[⟨"kappa", Numeral.digits 5⟩], rfl, by decide, by simpa using formed_digits 5,
      ⟨_, rfl, .part blanks_nil (hmember "kappa" rfl _) (.close blanks_nil)⟩,
      ⟨_, rfl, .part blanks_nil rfl (.close blanks_nil)⟩⟩
  have hblock : Unnamed BlockRule.names 2 _ _ :=
    ⟨[⟨"encoding_overhead_ms", Numeral.digits 7⟩, ⟨"calibrated_block_size", Numeral.digits 200⟩],
      rfl, by decide, by simpa using ⟨formed_digits 7, formed_digits 200⟩,
      ⟨_, rfl, .part blanks_nil (hmember "encoding_overhead_ms" rfl _)
        (.part hcomma (hmember "calibrated_block_size" rfl _) (.close blanks_nil))⟩,
      ⟨_, rfl, .part blanks_nil rfl (.part hcommaSpace rfl (.close blanks_nil))⟩⟩
  have hvalue : Unnaming.Value ⟨some 3, some 1, some 2⟩ _ _ :=
    .unnamed rfl
      (.cons (.same (e := ⟨"kind", _⟩) (formed_plain (s := "adaptive") rfl) (by simp) (by simp))
        (.cons (.indexRule rfl hindex) (.cons (.blockRule rfl hblock) .nil)))
      (by decide)
      ⟨_, rfl, .part blanks_nil (hmember "kind" rfl _)
        (.part hcomma (hmember "static_drop" rfl _)
          (.part hcomma (hmember "adaptive" rfl _) (.close blanks_nil)))⟩
      ⟨_, rfl, .part blanks_nil rfl
        (.part hcommaSpace rfl (.part hcommaSpace rfl (.close blanks_nil)))⟩
  have hdocument : Unnaming.Document ⟨some 3, some 1, some 2⟩ text text' :=
    ⟨[], _, [], [], _, [], blanks_nil, blanks_nil, blanks_nil, blanks_nil, hvalue,
      by decide +kernel, by decide +kernel⟩
  obtain ⟨hafter, hrest⟩ := ofDocument_unnamed hdocument haccepted
  exact ⟨haccepted, hafter, hrest.indexRule 1 rfl, hrest.blockRule 2 rfl⟩

end PolicySettings

end LossRelay
