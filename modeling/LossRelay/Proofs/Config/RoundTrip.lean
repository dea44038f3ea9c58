import LossRelay.Config.Policy
import LossRelay.Proofs.Json.Writing
import Mathlib.Data.List.Sort

/-!
# Policy documents are read back

`PolicySettings.written` writes settings as a document, in full: every field in order of
declaration, sets as ascending lists.  Whatever the spacing, reading the document gives the settings
again if they are fit to run, and otherwise says what is wrong with them (`ofDocument_written`).
-/

namespace LossRelay

open Json

/-! ### Sets of indices -/

theorem IndexSet.ext_mem {s t : IndexSet} (h : ∀ x, x ∈ s ↔ x ∈ t) : s = t := by
  have hmembers : s.members = t.members := s.ascending.eq_of_mem_iff t.ascending h
  cases s
  cases t
  cases hmembers
  rfl

theorem IndexSet.ofList_congr {xs ys : List UInt64} (h : ∀ x, x ∈ xs ↔ x ∈ ys) :
    ofList xs = ofList ys :=
  ext_mem fun x => by rw [mem_ofList, mem_ofList, h]

@[simp] theorem IndexSet.ofList_members (s : IndexSet) : .ofList s.members = s :=
  ext_mem fun _ => mem_ofList

/-! ### Writing settings -/

def IndexSet.written (sp : Spacing) (depth : Nat) (s : IndexSet) : List Char :=
  sp.list depth (s.members.map fun n => Numeral.digits n.toNat)

def IndexRule.written (sp : Spacing) (depth : Nat) (rule : IndexRule) : List Char :=
  sp.object depth
    [("kappa", Numeral.digits rule.windowEnd.toNat),
      ("target_source", rule.targets.written sp (depth + 1)),
      ("payload_repair", rule.exempt.written sp (depth + 1))]

def BlockRule.written (sp : Spacing) (depth : Nat) (rule : BlockRule) : List Char :=
  sp.object depth
    [("encoding_overhead_ms", Numeral.digits rule.silenceMs.toNat),
      ("calibrated_block_size", Numeral.digits rule.tunedSize.toNat),
      ("target_offset", Numeral.digits rule.offset.toNat)]

/-- Settings as a document. -/
def PolicySettings.written (sp : Spacing) (settings : PolicySettings) : String :=
  String.ofList (sp.object 0
    [("kind", Spacing.quoted settings.kind.name),
      ("static_drop", settings.indexRule.written sp 1),
      ("adaptive", settings.blockRule.written sp 1)])

example : PolicySettings.written .compact ⟨.byBlock, ⟨10, .ofList [4, 0], .empty⟩, .reference⟩ =
    "\x7b\"kind\":\"adaptive\"," ++
      "\"static_drop\":\x7b\"kappa\":10,\"target_source\":[0,4],\"payload_repair\":[]\x7d," ++
      "\"adaptive\":\x7b\"encoding_overhead_ms\":500,\"calibrated_block_size\":453," ++
      "\"target_offset\":100\x7d\x7d" := by
  decide +kernel

example : IndexSet.written .lines 1 (.ofList [8, 16]) = "[\n    8,\n    16\n  ]".toList := by
  decide +kernel

/-! ### Reading them back -/

variable {sp : Spacing}

theorem itemText_digits (n : UInt64) : ItemText natural64 n (Numeral.digits n.toNat) := by
  obtain ⟨c, cs, hcs, hc⟩ := digits_cons n.toNat
  refine ⟨⟨c, cs, hcs, isBlank_of_isDigit hc, ?_⟩, natural64_reads n⟩
  rintro rfl
  cases hc

theorem natural64_colon (n : UInt64) :
    Reads natural64 (sp.colon ++ Numeral.digits n.toNat) n :=
  (natural64_reads n).blanks (natural_lenient _ _) sp.blanks_colon

theorem IndexSet.written_read (depth : Nat) (s : IndexSet) :
    Reads IndexRule.readIndices (sp.colon ++ s.written sp depth) s := by
  have hitems : List.Forall₂ (ItemText natural64) s.members
      (s.members.map fun n => Numeral.digits n.toNat) :=
    List.forall₂_map_right_iff.mpr (List.forall₂_same.mpr fun n _ => itemText_digits n)
  have hlist : Reads (Json.list natural64) (sp.colon ++ s.written sp depth) s.members :=
    (Spacing.list_read depth hitems).blanks (list_lenient _) sp.blanks_colon
  have hread := hlist.map IndexSet.ofList
  rwa [s.ofList_members] at hread

theorem IndexRule.written_read (depth : Nat) (rule : IndexRule) :
    Reads IndexRule.record.read (rule.written sp depth) rule := by
  refine Spacing.object_read record depth
    [⟨"kappa", fun r => { r with windowEnd := rule.windowEnd }⟩,
      ⟨"target_source", fun r => { r with targets := rule.targets }⟩,
      ⟨"payload_repair", fun r => { r with exempt := rule.exempt }⟩]
    (.cons ?_ (.cons ?_ (.cons ?_ .nil))) rfl (by decide)
  · exact Spacing.member_text rfl rfl fun r =>
      (natural64_colon rule.windowEnd).map fun n => { r with windowEnd := n }
  · exact Spacing.member_text rfl rfl fun r =>
      (rule.targets.written_read _).map fun s => { r with targets := s }
  · exact Spacing.member_text rfl rfl fun r =>
      (rule.exempt.written_read _).map fun s => { r with exempt := s }

theorem BlockRule.written_read (depth : Nat) (rule : BlockRule) :
    Reads BlockRule.record.read (rule.written sp depth) rule := by
  refine Spacing.object_read record depth
    [⟨"encoding_overhead_ms", fun r => { r with silenceMs := rule.silenceMs }⟩,
      ⟨"calibrated_block_size", fun r => { r with tunedSize := rule.tunedSize }⟩,
      ⟨"target_offset", fun r => { r with offset := rule.offset }⟩]
    (.cons ?_ (.cons ?_ (.cons ?_ .nil))) rfl (by decide)
  · exact Spacing.member_text rfl rfl fun r =>
      (natural64_colon rule.silenceMs).map fun n => { r with silenceMs := n }
  · exact Spacing.member_text rfl rfl fun r =>
      (natural64_colon rule.tunedSize).map fun n => { r with tunedSize := n }
  · exact Spacing.member_text rfl rfl fun r =>
      (natural64_colon rule.offset).map fun n => { r with offset := n }

theorem PolicyKind.name_read (kind : PolicyKind) :
    Reads PolicyKind.choice.read (Spacing.quoted kind.name) kind := by
  cases kind
  · exact Choice.reads (literal_plain rfl) rfl
  · exact Choice.reads (literal_plain rfl) rfl

/-- Settings are read back from their document, fit to run or not. -/
theorem PolicySettings.written_read (settings : PolicySettings) :
    document PolicySettings.record.read (settings.written sp) = .ok settings := by
  have hkind : Reads PolicyKind.choice.read (sp.colon ++ Spacing.quoted settings.kind.name)
      settings.kind := settings.kind.name_read.blanks (Choice.lenient _) sp.blanks_colon
  have hindex : Reads IndexRule.record.read (sp.colon ++ settings.indexRule.written sp 1)
      settings.indexRule :=
    (settings.indexRule.written_read 1).blanks (Record.lenient _) sp.blanks_colon
  have hblock : Reads BlockRule.record.read (sp.colon ++ settings.blockRule.written sp 1)
      settings.blockRule :=
    (settings.blockRule.written_read 1).blanks (Record.lenient _) sp.blanks_colon
  refine document_of_reads (Spacing.object_read record 0
    [⟨"kind", fun r => { r with kind := settings.kind }⟩,
      ⟨"static_drop", fun r => { r with indexRule := settings.indexRule }⟩,
      ⟨"adaptive", fun r => { r with blockRule := settings.blockRule }⟩]
    (.cons ?_ (.cons ?_ (.cons ?_ .nil))) rfl (by decide))
  · exact Spacing.member_text rfl rfl fun r => hkind.map fun kind => { r with kind }
  · exact Spacing.member_text rfl rfl fun r => hindex.map fun indexRule => { r with indexRule }
  · exact Spacing.member_text rfl rfl fun r => hblock.map fun blockRule => { r with blockRule }

/-- **A written policy document is read back**, whatever the spacing: settings that are fit to run
are the outcome, and of others the outcome is what is wrong with them. -/
theorem PolicySettings.ofDocument_written (sp : Spacing) (settings : PolicySettings) :
    ofDocument (settings.written sp) = settings.validate.map fun () => settings := by
  unfold ofDocument
  rw [written_read]
  dsimp only
  cases settings.validate <;> rfl

end LossRelay
